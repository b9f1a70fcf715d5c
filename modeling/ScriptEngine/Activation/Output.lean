/-!
# Output

Where printed text goes. Only a buffer keeps it.
-/

namespace ScriptEngine

inductive Sink where
  | stdout
  | buffer
  | silent
deriving DecidableEq, Repr

structure Output where
  sink : Sink := .buffer
  /-- What a buffer has captured; empty for the other sinks. -/
  text : String := ""
deriving DecidableEq, Repr

namespace Output

instance : Inhabited Output := ⟨{}⟩

def write (output : Output) (text : String) : Output :=
  match output.sink with
  | .buffer => { output with text := output.text ++ text }
  | .stdout | .silent => output

def clear (output : Output) : Output :=
  { output with text := "" }

@[simp] theorem write_empty (output : Output) : output.write "" = output := by
  unfold write
  split <;> simp

end Output

end ScriptEngine
