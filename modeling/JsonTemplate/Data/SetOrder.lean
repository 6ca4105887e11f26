import JsonTemplate.Data

set_option autoImplicit false

/-!
# The order of a set

A set of numbers is shown in the order of their places in a table, so that small integers
come in increasing order. A number takes the first free place on a path that starts at its
residue. Other sets are shown as they were entered.
-/

namespace JsonTemplate.Data

def residues : Nat := Nat.pow 2 61 - 1

/-- A residue with a sign. Minus one counts as minus two. -/
def signedResidue (negative : Bool) (residue : Nat) : Int :=
  if negative then (if residue = 1 then -2 else -(residue : Int)) else residue

def residue? : Data → Option Int
  | .boolean value => some (if value then 1 else 0)
  | .integer value => some (signedResidue (value < 0) (value.natAbs % residues))
  | .float value =>
      match Binary64.form value with
      | .notANumber => none
      | .infinite negative => some (signedResidue negative 314159)
      | .finite negative magnitude =>
          -- Doubling a residue as often as it has bits gives it back.
          let doublings := (magnitude.power.emod 61).toNat
          some (signedResidue negative (magnitude.significand * Nat.pow 2 doublings % residues))
  | _ => none

/-- How many places there are for the members of a set: a power of two with room to
spare. -/
def placesFor (count : Nat) : Nat :=
  if count < 5 then 8 else Nat.pow 2 (Nat.log2 (2 * count) + 1)

/-- The places that are looked at together: ten in a row where so many are left. -/
def nearby (places place : Nat) : List Nat :=
  if place + 9 < places then List.range' place 10 else [place]

def freePlace (table : Array (Option Data)) : (turns place bend : Nat) → Nat
  | 0, place, _ => place
  | turns + 1, place, bend =>
      match (nearby table.size place).find? fun near => (table[near]?.bind id).isNone with
      | some free => free
      | none =>
          -- Every turn uses up five bits; without any left the path goes through all places.
          let bend := bend / 32
          freePlace table turns ((place * 5 + 1 + bend) % table.size) bend

def seat (table : Array (Option Data)) (residue : Int) (member : Data) : Array (Option Data) :=
  let bits := (residue.emod (Nat.pow 2 64)).toNat
  table.setIfInBounds (freePlace table (table.size + 13) (bits % table.size) bits) (some member)

/-- The members of a set as they are shown, from the order in which they were entered. -/
def inSetOrder (members : List Data) : List Data :=
  match members.mapM residue? with
  | none => members
  | some residues =>
      let table := (residues.zip members).foldl (fun table (residue, member) =>
        seat table residue member) (Array.replicate (placesFor members.length) none)
      table.toList.filterMap id

end JsonTemplate.Data
