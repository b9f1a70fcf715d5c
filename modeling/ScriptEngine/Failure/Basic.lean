import ScriptEngine.Failure.Cause
import ScriptEngine.Source.Span

/-!
# Failures

A failure is a cause with the span it is blamed on and the calls that were
active. The first span that is attached stays.
-/

namespace ScriptEngine

/-- One active call: the function and the span of the call. -/
structure Activation where
  function : String
  callSite : Span
deriving DecidableEq, Repr

/-- The calls active at a moment, innermost first. -/
structure Backtrace where
  calls : List Activation
deriving DecidableEq, Repr

namespace Backtrace

private def lines : Nat → List Activation → String
  | _, [] => ""
  | number, call :: others =>
      "  " ++ toString number ++ ": " ++ call.function ++ " at " ++ call.callSite.text ++
        "\n" ++ lines (number + 1) others

/-- One line for each call under a heading; nothing if no call is active. -/
def text (backtrace : Backtrace) : String :=
  match backtrace.calls with
  | [] => ""
  | calls => "stack backtrace:\n" ++ lines 0 calls

end Backtrace

structure Failure where
  cause : Cause
  span : Option Span := none
  backtrace : Option Backtrace := none
deriving DecidableEq, Repr

namespace Failure

def of (cause : Cause) : Failure := { cause := cause }

/-- The failure blamed on a span, unless it is blamed on one already. -/
def locate (failure : Failure) (span : Span) : Failure :=
  { failure with span := failure.span <|> some span }

def withBacktrace (failure : Failure) (backtrace : Backtrace) : Failure :=
  { failure with backtrace := some backtrace }

/-- The failure with these calls active, unless it has a backtrace already
or no call is active. -/
def attach (failure : Failure) (backtrace : Backtrace) : Failure :=
  if backtrace.calls.isEmpty || failure.backtrace.isSome then failure
  else failure.withBacktrace backtrace

theorem locate_of_span {failure : Failure} {span : Span}
    (known : failure.span = some span) (other : Span) :
    failure.locate other = failure := by
  cases failure
  simp_all [locate]

theorem attach_attach (failure : Failure) (first second : Backtrace)
    (active : first.calls ≠ []) :
    (failure.attach first).attach second = failure.attach first := by
  unfold attach withBacktrace
  cases known : failure.backtrace <;> simp [active, known]

end Failure

end ScriptEngine
