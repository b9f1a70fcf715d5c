import ScriptEngine.Proofs.Abreast.Calls
import ScriptEngine.Proofs.Abreast.Literals

/-!
# Runs of one evaluator

Runs that keep the same literals go side by side, as long as every built-in function that is
called is impartial.
-/

namespace ScriptEngine.Nested

open Evaluation

variable {setup : Setup} {inner inner' : Nested}

theorem layer_abreast (impartial : setup.CallsOnly (Builtin.Impartial False))
    (both : inner.Abreast .both inner') (iterations : Nat) :
    (layer setup (fun () => inner) iterations).Abreast .both
      (layer setup (fun () => inner') iterations) := by
  have operands := both.operands
  constructor
  · intro depth
    constructor
    · intro id _ hands
      apply withExpression_abreast
      intro node span found
      apply expression_abreast (operands depth) fun _ _ => trivial
      · exact fun value _ => literal_abreast _ id value
      · rintro callee arguments rfl
        refine call_abreast both span ?_
        rintro name builtin rfl
        exact impartial found
      · exact fun target value _ =>
          assign_abreast (operands depth) (both.targets depth) trivial trivial
    · intro id _ hands
      exact withExpression_abreast fun _ =>
        sharedExpression_abreast (operands depth) trivial fun _ _ => trivial
  · intro depth id _ hands
    exact withExpression_abreast fun _ =>
      targetExpression_abreast (operands depth) (both.targets depth) fun _ _ => trivial
  · intro id depth hands
    exact withStatement_agreeing both id
  · rfl

theorem withFuel_agreeing (impartial : setup.CallsOnly (Builtin.Impartial False)) (fuel : Nat) :
    (withFuel setup fuel).Abreast .both (withFuel setup fuel) := by
  induction fuel with
  | zero => exact exhausted_abreast _
  | succ fuel induction => exact layer_abreast impartial induction fuel

end ScriptEngine.Nested
