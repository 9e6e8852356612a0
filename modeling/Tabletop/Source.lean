import Tabletop.Sides

/-!
# Sources of faces

Dice take their faces from a source. A fair source is random; a loaded one is fixed beforehand.
-/

namespace Tabletop

/-- A source gives a face for the bounds of a die, and the source of the next face. -/
class Source (σ : Type) where
  next : Bounds → σ → Score × σ

/-- A face that lies `steps` above the lowest one, or the lowest where there is no such face. -/
def Bounds.face (bounds : Bounds) (steps : Nat) : Score :=
  if bounds.low.val + steps ≤ bounds.high.val then
    (Score.ofInt? (bounds.low.val + steps)).getD bounds.low
  else bounds.low

/-- Every face of a die is equally likely. -/
instance : Source StdGen where
  next bounds generator :=
    let (steps, generator) := randNat generator 0 (bounds.high.val - bounds.low.val).toNat
    (bounds.face steps, generator)

/-- Dice whose faces are fixed beforehand. -/
inductive Loaded where
  | lowest
  | highest
  /-- The faces of a sequence, whatever the die, of which some are already drawn. -/
  | sequence (face : Nat → Score) (drawn : Nat)

namespace Loaded

/-- The listed faces over and over. -/
def cycle (faces : List Score) : Loaded :=
  let faces := faces.toArray
  .sequence (fun index => faces.getD (index % faces.size) .zero) 0

def next (bounds : Bounds) : Loaded → Score × Loaded
  | .lowest => (bounds.low, .lowest)
  | .highest => (bounds.high, .highest)
  | .sequence face drawn => (face drawn, .sequence face (drawn + 1))

instance : Source Loaded := ⟨next⟩

end Loaded

end Tabletop
