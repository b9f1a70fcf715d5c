import ScriptEngine.Failure.Cause
import ScriptEngine.Heap.Basic
import ScriptEngine.Number.Fixed

/-!
# Casts

Integers convert to and from unsigned words, single-precision numbers and
chars; truth values convert to integers. A cast to the kind the value has
already gives a copy, with the type of the value.
-/

namespace ScriptEngine

inductive Conversion where
  | computed (value : Scalar)
  | duplicate
deriving DecidableEq, Repr

/-- The code point of an integer, if it is one. -/
def codePoint? (number : Int) : Option Char :=
  if 0 ≤ number then
    if valid : number.toNat.isValidChar then some (Char.ofNatAux number.toNat valid)
    else none
  else none

/-- The signed word nearest to an integer. -/
def saturate (number : Int) : Int64 :=
  if number < Int64.minValue.toInt then Int64.minValue
  else if Int64.maxValue.toInt < number then Int64.maxValue
  else Int64.ofInt number

/-- The conversion that only applies when the kinds are the same. -/
def sameKind (payload : Payload) (target : StaticType) : Except Cause Conversion :=
  if payload.kind = target.kind then .ok .duplicate
  else .error (.invalidCast payload.kind.name target.text)

def conversion (payload : Payload) (target : StaticType) : Except Cause Conversion :=
  match payload, target.kind with
  | .scalar (.int number), .float => .ok (.computed (.float (.ofInt number.toInt)))
  | .scalar (.float number), .int =>
      match number.truncate? with
      | some whole => .ok (.computed (.int (saturate whole)))
      | none => sameKind payload target
  | .scalar (.int number), .usize =>
      match uint64? number.toInt with
      | some word => .ok (.computed (.usize word))
      | none => .error (.integerOverflow "conversion")
  | .scalar (.usize number), .int =>
      match int64? number.toNat with
      | some word => .ok (.computed (.int word))
      | none => .error (.integerOverflow "conversion")
  | .scalar (.bool truth), .int => .ok (.computed (.int (if truth then 1 else 0)))
  | .scalar (.char character), .int =>
      .ok (.computed (.int (Int64.ofNat character.toNat)))
  | .scalar (.int number), .char =>
      match codePoint? number.toInt with
      | some character => .ok (.computed (.char character))
      | none => .error (.invalidCast (toString number.toInt) target.text)
  | _, _ => sameKind payload target

end ScriptEngine
