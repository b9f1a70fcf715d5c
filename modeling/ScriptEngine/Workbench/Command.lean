import ScriptEngine.Activation.Calls
import ScriptEngine.Activation.Loops
import ScriptEngine.Operation.Arithmetic
import ScriptEngine.Operation.Cast
import ScriptEngine.Operation.Comparison
import ScriptEngine.Session.Description
import ScriptEngine.Storage.Place

/-!
# Workbench commands

The single operations on values, slots, places, scopes, calls and loops that
a workbench carries out, and the answers it gives.
-/

namespace ScriptEngine.Workbench

/-- A container to be made of slots that are held by name. -/
inductive Assembly where
  | vector (element : StaticType) (elements : List String)
  | dict (key value : StaticType) (entries : List (String × String))

/-- Commands that take a target name hold their result under it. -/
inductive Command where
  | create (target : String) (description : Description)
  | handle (target source : String)
  | copy (target source : String)
  | default (target : String) (type : StaticType)
  | drop (name : String)
  | show (name : String)
  | quote (name : String)
  | outline (name : String)
  | equals (left right : String)
  | same (left right : String)
  | inspect (name : String)
  | element (target source : String) (position : Nat)
  | find (target source key : String)
  | useZone (number : Fin 2)
  | resetZone (number : Fin 2)
  | sweep
  | live
  | isLive (name : String)
  | newSlot (slot source : String)
  | readSlot (target slot : String)
  | replaceSlot (slot source target : String)
  | outlineSlot (slot : String)
  | dropSlot (slot : String)
  | assemble (target : String) (assembly : Assembly)
  | arithmetic (target : String) (operator : ArithmeticOperator) (left right : String)
  | compare (operator : ComparisonOperator) (left right : String)
  | unary (target : String) (operator : UnaryOperator) (operand : String)
  | cast (target source : String) (type : StaticType)
  | position (key : String) (length : Nat)
  | read (target container key : String)
  | locate (place container key : String) (access : Access)
  | elementPlace (place container : String) (position : Nat)
  | entryPlace (place container : String) (position : Nat)
  | bindingPlace (place : String) (depth : Nat) (name : String)
  | load (target place : String)
  | store (place source target : String)
  | dropPlace (place : String)
  | pushScope
  | popScope
  | truncate (depth : Nat)
  | declare (name source : String)
  | resolve (name : String) (floor : Nat)
  | lookup (target name : String) (floor : Nat)
  | getBinding (target : String) (depth : Nat) (name : String)
  | replaceBinding (depth : Nat) (name source target : String)
  | skipFrom (depth : Nat)
  | scopeInfo
  | newFrame (frame : String)
  | declareIn (frame name source : String)
  | readFrame (target frame name : String)
  | frameSize (frame : String)
  | dropFrame (frame : String)
  | newCalls (limit : Option Nat)
  | pushCall (name : String) (callSite : Span) (scopeBase loopBase : Nat)
  | popCall
  | setResult (source : String)
  | takeResult (target : String)
  | callInfo
  | capture
  | attach (failure : Failure)
  | pushLoop (scopeDepth : Nat)
  | popLoop
  | innermostLoop (base : Nat)
  | breakLoop (base : Nat)

/-- What there is to see of a call frame. -/
structure CallSummary where
  function : String
  callSite : Span
  scopeBase : Nat
  loopBase : Nat
  returned : Bool
  result : Option Snapshot

inductive Reply where
  | nothing
  | value (snapshot : Snapshot)
  | text (contents : String)
  | truth (holds : Bool)
  | number (count : Nat)
  | optionalNumber (count : Option Nat)
  | place (place : Place) (name : String)
  | payload (payload : Payload)
  | scopes (depth : Nat) (innermost : ScopeFrame)
  | call (summary : Option CallSummary)
  | calls (depth : Nat) (limit : Option Nat) (current : Option CallSummary)
  | backtrace (backtrace : Backtrace)
  | attached (first second : Failure)
  | loop (frame : Option LoopFrame)
  | failed (failure : Failure)
  /-- The command names a value, slot or place that is not held. -/
  | unknownName

end ScriptEngine.Workbench
