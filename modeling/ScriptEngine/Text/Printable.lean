import ScriptEngine.Text.DefaultIgnorable
import ScriptEngine.Text.ExtendingMark
import ScriptEngine.Text.Unprintable

/-!
# Printable characters

Which characters can be shown as themselves.
-/

namespace ScriptEngine.Printable

def inRanges (ranges : Array (Nat × Nat)) (character : Char) : Bool :=
  ranges.any fun range =>
    decide (range.1 ≤ character.toNat ∧ character.toNat ≤ range.2)

def isAsciiGraphic (character : Char) : Bool :=
  decide (0x20 ≤ character.toNat ∧ character.toNat < 0x7F)

/-- Of the ASCII characters those from the space to the tilde; of the others
those that belong to no unprintable category and are not ignorable. -/
def isPrintable (character : Char) : Bool :=
  if character.toNat < 0x80 then isAsciiGraphic character
  else
    !(inRanges unprintableRanges character || inRanges defaultIgnorableRanges character)

def isExtendingMark (character : Char) : Bool :=
  inRanges extendingMarkRanges character

/-- No character is both graphic ASCII and unprintable. -/
theorem isPrintable_of_isAsciiGraphic {character : Char}
    (graphic : isAsciiGraphic character = true) : isPrintable character = true := by
  have bounds : 0x20 ≤ character.toNat ∧ character.toNat < 0x7F := by
    simpa [isAsciiGraphic] using graphic
  have ascii : character.toNat < 0x80 := Nat.lt_trans bounds.2 (by decide)
  simp [isPrintable, ascii, graphic]

end ScriptEngine.Printable
