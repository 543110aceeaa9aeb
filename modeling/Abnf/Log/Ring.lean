import Abnf.Log.Record

/-! A bounded log in memory. When it is full, the oldest record makes room for the newest. -/

namespace Abnf.Log

/-- The records are those of `front` and then, backwards, those of `back`. -/
structure Ring where
  capacity : Nat
  front : List Record := []
  back : List Record := []
  size : Nat := 0
  dropped : Nat := 0
  size_eq : size = front.length + back.length := by rfl

namespace Ring

def new (capacity : Nat) : Ring := { capacity }

/-- All records kept, oldest first. -/
def records (r : Ring) : List Record := r.front ++ r.back.reverse

def isEmpty (r : Ring) : Bool := r.size == 0

/-- Drops the first record of `front`, which is filled from `back` when it has run out. -/
def evict (r : Ring) : Ring :=
  match hf : r.front with
  | _ :: front =>
    { r with
      front
      size := r.size - 1
      dropped := r.dropped + 1
      size_eq := by simp only [r.size_eq, hf, List.length_cons]; omega }
  | [] =>
    match r.back.reverse with
    | _ :: front =>
      { r with front, back := [], size := front.length, dropped := r.dropped + 1, size_eq := rfl }
    | [] => r

def append (r : Ring) (record : Record) : Ring :=
  { r with
    back := record :: r.back
    size := r.size + 1
    size_eq := by simp only [r.size_eq, List.length_cons]; omega }

def push (r : Ring) (record : Record) : Ring :=
  if r.capacity = 0 then { r with dropped := r.dropped + 1 }
  else if r.capacity ≤ r.size then r.evict.append record
  else r.append record

def clear (r : Ring) : Ring := new r.capacity

end Ring

end Abnf.Log
