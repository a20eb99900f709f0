import Slate.Texts

/-! The instances that the client suggests where the given one does not exist. -/

namespace Slate

variable {α : Type} [DecidableEq α]

/-- The cells of the row from left to right, for one more character of the target. A cell is made
from the one to its left, the one that was in its place and the one that was to the left of that. -/
def updateCells (target : α) : Nat → Nat → List α → List Nat → List Nat
  | left, previousDiagonal, c :: source, cell :: levDist =>
    let updated := if c = target then previousDiagonal else min (min left cell) previousDiagonal + 1
    updated :: updateCells target updated cell source levDist
  | _, _, _, _ => []

/-- A round of the outer loop of `levensteinDistance`. -/
def updateRow (source : List α) (levDist : List Nat) (target : α) : List Nat :=
  match levDist with
  | [] => []
  | first :: levDist => (first + 1) :: updateCells target (first + 1) first source levDist

/-- The loops of `levensteinDistance` behind the swap of its arguments. -/
def rowDistance (source target : List α) : Nat :=
  (target.foldl (updateRow source) (List.range (source.length + 1))).getD source.length 0

def levensteinDistance (source target : List α) : Nat :=
  if source.length > target.length then rowDistance target source else rowDistance source target

structure ListedInstance where
  id : StdString
  name : StdString

/-- `std::numeric_limits<std::size_t>::max()` -/
def sizeMax : Nat := 2 ^ 64 - 1

structure BestFits where
  bestdist : Nat
  bestfits : List ListedInstance

/-- A round of the loop of `retryInstanceCommandWithFixup` over the instances. -/
def BestFits.consider (badID : StdString) (best : BestFits) (candidate : ListedInstance) : BestFits :=
  let s1 := levensteinDistance badID.text candidate.id.text
  let s2 := levensteinDistance badID.text candidate.name.text
  let betterdist := min s1 s2
  if betterdist < best.bestdist then ⟨betterdist, [candidate]⟩
  else if betterdist = best.bestdist then { best with bestfits := best.bestfits ++ [candidate] }
  else best

def findBestFits (badID : StdString) (items : List ListedInstance) : List ListedInstance :=
  (items.foldl (BestFits.consider badID) ⟨sizeMax, []⟩).bestfits

end Slate
