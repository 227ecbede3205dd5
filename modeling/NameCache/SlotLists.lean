/-
  A fixed number of lists threaded through one array of slots.

  A slot is vacant or holds a node: a value, the list it is on, and its neighbours there.  A node's
  number is the number of its slot, so it stays the same until the node is removed, and removing or
  moving a node needs no search.  A freed slot is used again before the array grows, the last freed
  one first.

  The links are followed literally.  A link to a vacant slot, an index past the end or a length
  below zero is a fault, so that "this never happens" is a statement about these definitions and
  not about their types.  `chain` is the view: the numbers and values of one list, head first.
-/
import NameCache.Step

namespace NameCache

/-- A value in its place on a list. -/
structure SlotLists.Node (α : Type) where
  value : α
  list : Nat
  prev : Option Nat
  next : Option Nat
  deriving DecidableEq, Repr

/-- Where a list begins, and how many nodes are on it. -/
structure SlotLists.Head where
  first : Option Nat := none
  count : Nat := 0
  deriving DecidableEq, Repr, Inhabited

/-- Lists of values that share one array of slots. -/
structure SlotLists (α : Type) where
  slots : Array (Option (SlotLists.Node α))
  /-- The vacant slots, last freed first. -/
  vacant : List Nat
  heads : Array SlotLists.Head
  deriving DecidableEq, Repr

namespace SlotLists

variable {α : Type}

/-- `lists` empty lists. -/
def empty (lists : Nat) : SlotLists α := ⟨#[], [], Array.replicate lists {}⟩

/-! ## Looking -/

/-- The node in slot `i`, if there is one. -/
def node? (s : SlotLists α) (i : Nat) : Option (Node α) := (s.slots[i]?).join

/-- The value of node `i`, if there is one. -/
def value? (s : SlotLists α) (i : Nat) : Option α := (s.node? i).map (·.value)

/-- The number of nodes on a list. -/
def count (s : SlotLists α) (list : Nat) : Nat := (s.heads[list]?.getD {}).count

/-- The number of nodes on all lists: the slots that are not vacant. -/
def total (s : SlotLists α) : Nat := s.slots.size - s.vacant.length

/-- The nodes reached from `cursor` by at most `fuel` links. -/
def chainFrom (s : SlotLists α) : Nat → Option Nat → List (Nat × α)
  | 0, _ => []
  | _, none => []
  | fuel + 1, some i =>
    match s.node? i with
    | none => []
    | some n => (i, n.value) :: chainFrom s fuel n.next

/-- A list as numbers and values, head first.  No list is longer than the array of slots. -/
def chain (s : SlotLists α) (list : Nat) : List (Nat × α) :=
  s.chainFrom s.slots.size (s.heads[list]?.bind (·.first))

/-- The values of a list, head first. -/
def values (s : SlotLists α) (list : Nat) : List α := (s.chain list).map (·.2)

/-! ## Reading and changing one node or one head -/

/-- The node in slot `i`, which has to be there. -/
def node (i : Nat) : Step (SlotLists α) (Node α) := fun s =>
  match s.slots[i]? with
  | none => .error (.outOfBounds s.slots.size i) s
  | some none => .error .vacantSlot s
  | some (some n) => .ok n s

/-- Change the node in slot `i`, which has to be there. -/
def editNode (i : Nat) (f : Node α → Node α) : Step (SlotLists α) Unit := fun s =>
  match s.slots[i]? with
  | none => .error (.outOfBounds s.slots.size i) s
  | some none => .error .vacantSlot s
  | some (some n) => .ok () { s with slots := s.slots.setIfInBounds i (some (f n)) }

/-- The head of a list, which has to exist. -/
def head (list : Nat) : Step (SlotLists α) Head := fun s =>
  match s.heads[list]? with
  | none => .error (.outOfBounds s.heads.size list) s
  | some h => .ok h s

/-- Change the head of a list, which has to exist. -/
def editHead (list : Nat) (f : Head → Head) : Step (SlotLists α) Unit := fun s =>
  match s.heads[list]? with
  | none => .error (.outOfBounds s.heads.size list) s
  | some h => .ok () { s with heads := s.heads.setIfInBounds list (f h) }

/-- Count one node less on a list. -/
def shorten (list : Nat) : Step (SlotLists α) Unit := do
  if (← head list).count = 0 then throw .differenceOverflow
  editHead list fun h => { h with count := h.count - 1 }

/-- Put a node into the last freed slot, or else into a new one. -/
def claim (n : Node α) : Step (SlotLists α) Nat := fun s =>
  match s.vacant with
  | [] => .ok s.slots.size { s with slots := s.slots.push (some n) }
  | i :: rest =>
    if i < s.slots.size then
      .ok i { s with slots := s.slots.setIfInBounds i (some n), vacant := rest }
    else .error (.outOfBounds s.slots.size i) { s with vacant := rest }

/-- Make a slot vacant. -/
def vacate (i : Nat) : Step (SlotLists α) Unit :=
  modify fun s => { s with slots := s.slots.setIfInBounds i none, vacant := i :: s.vacant }

/-! ## Linking and unlinking -/

/-- Make the node in slot `i` the first of `list`. -/
def linkFront (i list : Nat) : Step (SlotLists α) Unit := do
  let old := (← head list).first
  editNode i fun n => { n with list := list, prev := none, next := old }
  match old with
  | some h => editNode h fun n => { n with prev := some i }
  | none => pure ()
  editHead list fun h => { first := some i, count := h.count + 1 }

/-- Take the node in slot `i` off its list, leaving it in its slot. -/
def unlink (i : Nat) : Step (SlotLists α) Unit := do
  let n ← node i
  editNode i fun n => { n with prev := none, next := none }
  match n.prev with
  | some p => editNode p fun m => { m with next := n.next }
  | none => editHead n.list fun h => { h with first := n.next }
  match n.next with
  | some x => editNode x fun m => { m with prev := n.prev }
  | none => pure ()
  shorten n.list

/-! ## The operations -/

/-- Put a value at the front of a list; the number of its node. -/
def pushFront (list : Nat) (value : α) : Step (SlotLists α) Nat := do
  let i ← claim { value, list, prev := none, next := none }
  linkFront i list
  return i

/-- Remove node `i`; its value.  A number that no node has gives nothing and changes nothing. -/
def remove (i : Nat) : Step (SlotLists α) (Option α) := do
  match (← get).value? i with
  | none => return none
  | some value =>
    unlink i
    vacate i
    return some value

/-- Move node `i` to the front of `list`, which may be the list it is on. -/
def moveToFront (i list : Nat) : Step (SlotLists α) Unit := do
  unlink i
  linkFront i list

/-- The first node of a list. -/
def front (list : Nat) : Step (SlotLists α) (Option Nat) := return (← head list).first

/-- Whether a list has no node. -/
def isEmpty (list : Nat) : Step (SlotLists α) Bool := return (← front list).isNone

/-! ## The slot freed last is used first -/

example : (do
    let _ ← pushFront 0 'a'
    let b ← pushFront 0 'b'
    let _ ← pushFront 1 'c'
    let _ ← remove b
    pushFront 1 'd' : Step (SlotLists Char) Nat).run (empty 2) =
      .ok 1 ⟨#[some ⟨'a', 0, none, none⟩, some ⟨'d', 1, none, some 2⟩, some ⟨'c', 1, some 1, none⟩],
        [], #[⟨some 0, 1⟩, ⟨some 1, 2⟩]⟩ := by
  rfl

end SlotLists

end NameCache
