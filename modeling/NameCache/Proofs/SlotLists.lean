/-
  The lists of `SlotLists` are lists.

  `Threaded s ls loose` says that the links in `s` spell out the lists `ls`: list `l` has the nodes
  `ls l`, head first, every node names the list it is on and its two neighbours there, the heads
  agree, and the vacant slots are on record, each once.  At most one node, `loose`, may sit in its
  slot without being on a list; that is the state between taking a node off one list and putting
  it on another.

  1. What each step reads and writes, as equations about `node?` and `heads` (`linkFront_run`,
     `unlink_run`).  These follow the links and know nothing of lists.
  2. What the steps do to `Threaded` (`Threaded.link`, `Threaded.unlink`, `claim`, `vacate`).  The
     crux is `unlink`: the only nodes whose neighbours change are the two beside the node that
     goes, so any way of splitting the shorter list comes from a split of the longer one.
  3. The operations, stated for the view `chain` (`pushFront_spec`, `remove_spec`,
     `moveToFront_spec`): none of them faults, and each does to the lists what its name says.
-/
import NameCache.SlotLists
import NameCache.Proofs.Step
import NameCache.Proofs.Sums

namespace NameCache

namespace SlotLists

variable {α : Type} {s t : SlotLists α} {ls : Nat → List (Nat × α)} {loose : Option Nat}
  {i j l : Nat} {n : Node α} {h : Head} {v : α}

/-! ## Reading and writing slots and heads -/

/-- The slots with another node in slot `i`. -/
def put (s : SlotLists α) (i : Nat) (n : Node α) : SlotLists α :=
  { s with slots := s.slots.setIfInBounds i (some n) }

/-- The slots with another head for list `l`. -/
def putHead (s : SlotLists α) (l : Nat) (h : Head) : SlotLists α :=
  { s with heads := s.heads.setIfInBounds l h }

theorem slot_of_node (hn : s.node? i = some n) : s.slots[i]? = some (some n) := by
  rw [node?] at hn
  exact Option.join_eq_some_iff.mp hn

theorem lt_of_node (hn : s.node? i = some n) : i < s.slots.size := by
  obtain ⟨hi, -⟩ := Array.getElem?_eq_some_iff.mp (slot_of_node hn)
  exact hi

/-- The nodes after a slot was written. -/
theorem node?_write (hi : i < s.slots.size) (x : Option (Node α)) (vacant : List Nat)
    (heads : Array Head) (j : Nat) :
    (SlotLists.mk (s.slots.setIfInBounds i x) vacant heads).node? j =
      if j = i then x else s.node? j := by
  rw [node?, Array.getElem?_setIfInBounds]
  by_cases hj : j = i
  · subst hj
    rw [if_pos rfl, if_pos hi, if_pos rfl]
    rfl
  · rw [if_neg (fun e => hj e.symm), if_neg hj]
    rfl

/-- The nodes after a slot was added. -/
theorem node?_push (x : Option (Node α)) (vacant : List Nat) (heads : Array Head) (j : Nat) :
    (SlotLists.mk (s.slots.push x) vacant heads).node? j =
      if j = s.slots.size then x else s.node? j := by
  rw [node?, Array.getElem?_push]
  by_cases hj : j = s.slots.size
  · rw [if_pos hj, if_pos hj]
    rfl
  · rw [if_neg hj, if_neg hj]
    rfl

theorem node?_put (hn : s.node? i = some n) (m : Node α) (j : Nat) :
    (s.put i m).node? j = if j = i then some m else s.node? j :=
  node?_write (lt_of_node hn) (some m) s.vacant s.heads j

theorem heads_putHead (hh : s.heads[l]? = some h) (h' : Head) (k : Nat) :
    (s.putHead l h').heads[k]? = if k = l then some h' else s.heads[k]? := by
  obtain ⟨hl, -⟩ := Array.getElem?_eq_some_iff.mp hh
  rw [putHead, Array.getElem?_setIfInBounds]
  by_cases hk : k = l
  · subst hk
    rw [if_pos rfl, if_pos hl, if_pos rfl]
  · rw [if_neg (fun e => hk e.symm), if_neg hk]

@[simp] theorem node?_putHead (h : Head) : (s.putHead l h).node? j = s.node? j := rfl

@[simp] theorem heads_put (m : Node α) : (s.put i m).heads = s.heads := rfl

@[simp] theorem vacant_put (m : Node α) : (s.put i m).vacant = s.vacant := rfl

@[simp] theorem vacant_putHead (h : Head) : (s.putHead l h).vacant = s.vacant := rfl

@[simp] theorem size_slots_put (m : Node α) : (s.put i m).slots.size = s.slots.size :=
  Array.size_setIfInBounds

@[simp] theorem size_slots_putHead (h : Head) : (s.putHead l h).slots.size = s.slots.size := rfl

@[simp] theorem size_heads_putHead (h : Head) : (s.putHead l h).heads.size = s.heads.size :=
  Array.size_setIfInBounds

theorem node_run (hn : s.node? i = some n) : node i s = .ok n s := by
  rw [node, slot_of_node hn]

theorem editNode_run (hn : s.node? i = some n) (f : Node α → Node α) :
    editNode i f s = .ok () (s.put i (f n)) := by
  rw [editNode, slot_of_node hn]
  rfl

theorem head_run (hh : s.heads[l]? = some h) : head l s = .ok h s := by
  rw [head, hh]

theorem editHead_run (hh : s.heads[l]? = some h) (f : Head → Head) :
    editHead l f s = .ok () (s.putHead l (f h)) := by
  rw [editHead, hh]
  rfl

theorem shorten_run (hh : s.heads[l]? = some h) (pos : h.count ≠ 0) :
    shorten l s = .ok () (s.putHead l { h with count := h.count - 1 }) := by
  rw [shorten, Step.bind_of_ok (head_run hh), if_neg pos]
  exact editHead_run hh _

/-! ## What linking and unlinking read and write -/

/-- Linking writes the node, the back link of the old first node, and the head. -/
theorem linkFront_run (hn : s.node? i = some n) (hh : s.heads[l]? = some h)
    (first : ∀ x, h.first = some x → x ≠ i ∧ ∃ m, s.node? x = some m) :
    ∃ t, linkFront i l s = .ok () t ∧
      (∀ j, t.node? j = if j = i then some ⟨n.value, l, none, h.first⟩
        else if h.first = some j then (s.node? j).map fun m => { m with prev := some i }
        else s.node? j) ∧
      (∀ k, t.heads[k]? = if k = l then some ⟨some i, h.count + 1⟩ else s.heads[k]?) ∧
      t.heads.size = s.heads.size ∧ t.slots.size = s.slots.size ∧ t.vacant = s.vacant := by
  let m₁ : Node α := ⟨n.value, l, none, h.first⟩
  have run₁ : editNode i (fun n => { n with list := l, prev := none, next := h.first }) s =
      .ok () (s.put i m₁) := editNode_run hn _
  cases hf : h.first with
  | none =>
    refine ⟨(s.put i m₁).putHead l ⟨some i, h.count + 1⟩, ?_, ?_, ?_, by simp, by simp, rfl⟩
    · rw [linkFront, Step.bind_of_ok (head_run hh), Step.bind_of_ok run₁, hf]
      exact editHead_run (s := s.put i m₁) hh _
    · intro j
      rw [node?_putHead, node?_put hn, if_neg (by simp : ¬ (none : Option Nat) = some j)]
      simp only [m₁, hf]
    · exact heads_putHead (s := s.put i m₁) hh _
  | some x =>
    obtain ⟨hxi, m, hm⟩ := first x hf
    have hm' : (s.put i m₁).node? x = some m := by rw [node?_put hn, if_neg hxi, hm]
    refine ⟨((s.put i m₁).put x { m with prev := some i }).putHead l ⟨some i, h.count + 1⟩,
      ?_, ?_, ?_, by simp, by simp, rfl⟩
    · rw [linkFront, Step.bind_of_ok (head_run hh), Step.bind_of_ok run₁, hf]
      refine (Step.bind_of_ok (editNode_run hm' _)).trans ?_
      exact editHead_run (s := (s.put i m₁).put x _) hh _
    · intro j
      rw [node?_putHead, node?_put hm', node?_put hn]
      by_cases hjx : j = x
      · subst hjx
        rw [if_pos rfl, if_neg hxi, if_pos rfl, hm]
        rfl
      · rw [if_neg hjx]
        by_cases hji : j = i
        · simp only [if_pos hji, m₁, hf]
        · rw [if_neg hji, if_neg hji, if_neg (fun e => hjx (Option.some.inj e).symm)]
    · exact heads_putHead (s := (s.put i m₁).put x _) hh _

/-- The node before a gap, or the head of its list, comes to point past the gap. -/
def pointPast (n : Node α) : Step (SlotLists α) Unit :=
  match n.prev with
  | some p => editNode p fun m => { m with next := n.next }
  | none => editHead n.list fun h => { h with first := n.next }

/-- The node behind a gap comes to point back over it. -/
def pointBack (n : Node α) : Step (SlotLists α) Unit :=
  match n.next with
  | some x => editNode x fun m => { m with prev := n.prev }
  | none => pure ()

theorem unlink_eq (i : Nat) : unlink (α := α) i = (do
    let n ← node i
    editNode i fun n => { n with prev := none, next := none }
    pointPast n
    pointBack n
    shorten n.list) := by
  unfold unlink
  congr 1
  funext n
  congr 1
  funext _
  rw [pointPast, pointBack]
  cases n.prev <;> cases n.next <;> rfl

theorem pointPast_run (hh : s.heads[n.list]? = some h)
    (prev : ∀ p, n.prev = some p → ∃ m, s.node? p = some m) :
    ∃ t, pointPast n s = .ok () t ∧
      (∀ j, t.node? j = if n.prev = some j then (s.node? j).map fun m => { m with next := n.next }
        else s.node? j) ∧
      (∀ k, t.heads[k]? = if k = n.list
        then some ⟨if n.prev = none then n.next else h.first, h.count⟩ else s.heads[k]?) ∧
      t.heads.size = s.heads.size ∧ t.slots.size = s.slots.size ∧ t.vacant = s.vacant := by
  rw [pointPast]
  cases hp : n.prev with
  | none =>
    refine ⟨_, editHead_run hh _, fun j => ?_, fun k => ?_, by simp, by simp, rfl⟩
    · rw [node?_putHead, if_neg (by simp : ¬ (none : Option Nat) = some j)]
    · rw [heads_putHead hh, if_pos rfl]
  | some p =>
    obtain ⟨m, hm⟩ := prev p hp
    refine ⟨_, editNode_run hm _, fun j => ?_, fun k => ?_, rfl, by simp, rfl⟩
    · rw [node?_put hm]
      by_cases hj : j = p
      · subst hj
        rw [if_pos rfl, if_pos rfl, hm]
        rfl
      · rw [if_neg hj, if_neg (fun e => hj (Option.some.inj e).symm)]
    · rw [heads_put, if_neg (by simp : ¬ some p = none)]
      by_cases hk : k = n.list
      · rw [if_pos hk, hk, hh]
      · rw [if_neg hk]

theorem pointBack_run (next : ∀ x, n.next = some x → ∃ m, s.node? x = some m) :
    ∃ t, pointBack n s = .ok () t ∧
      (∀ j, t.node? j = if n.next = some j then (s.node? j).map fun m => { m with prev := n.prev }
        else s.node? j) ∧
      t.heads = s.heads ∧ t.slots.size = s.slots.size ∧ t.vacant = s.vacant := by
  rw [pointBack]
  cases hx : n.next with
  | none =>
    refine ⟨s, rfl, fun j => ?_, rfl, rfl, rfl⟩
    rw [if_neg (by simp : ¬ (none : Option Nat) = some j)]
  | some x =>
    obtain ⟨m, hm⟩ := next x hx
    refine ⟨_, editNode_run hm _, fun j => ?_, rfl, by simp, rfl⟩
    rw [node?_put hm]
    by_cases hj : j = x
    · subst hj
      rw [if_pos rfl, if_pos rfl, hm]
      rfl
    · rw [if_neg hj, if_neg (fun e => hj (Option.some.inj e).symm)]

/-- Unlinking writes the node, its two neighbours there, and the head. -/
theorem unlink_run (hn : s.node? i = some n) (hh : s.heads[n.list]? = some h) (pos : h.count ≠ 0)
    (prev : ∀ p, n.prev = some p → p ≠ i ∧ ∃ m, s.node? p = some m)
    (next : ∀ x, n.next = some x → x ≠ i ∧ n.prev ≠ some x ∧ ∃ m, s.node? x = some m) :
    ∃ t, unlink i s = .ok () t ∧
      (∀ j, t.node? j = if j = i then some { n with prev := none, next := none }
        else if n.prev = some j then (s.node? j).map fun m => { m with next := n.next }
        else if n.next = some j then (s.node? j).map fun m => { m with prev := n.prev }
        else s.node? j) ∧
      (∀ k, t.heads[k]? = if k = n.list
        then some ⟨if n.prev = none then n.next else h.first, h.count - 1⟩ else s.heads[k]?) ∧
      t.heads.size = s.heads.size ∧ t.slots.size = s.slots.size ∧ t.vacant = s.vacant := by
  have nodes₁ : ∀ j, (s.put i { n with prev := none, next := none }).node? j = _ :=
    node?_put hn { n with prev := none, next := none }
  obtain ⟨s₂, run₂, nodes₂, heads₂, nheads₂, nslots₂, vacant₂⟩ :=
    pointPast_run (s := s.put i { n with prev := none, next := none }) (n := n) hh (by
      intro p hp
      obtain ⟨hpi, m, hm⟩ := prev p hp
      exact ⟨m, by rw [nodes₁, if_neg hpi, hm]⟩)
  obtain ⟨s₃, run₃, nodes₃, heads₃, nslots₃, vacant₃⟩ :=
    pointBack_run (s := s₂) (n := n) (by
      intro x hx
      obtain ⟨hxi, hxp, m, hm⟩ := next x hx
      exact ⟨m, by rw [nodes₂, if_neg hxp, nodes₁, if_neg hxi, hm]⟩)
  have hh₃ : s₃.heads[n.list]? = some ⟨if n.prev = none then n.next else h.first, h.count⟩ := by
    rw [heads₃, heads₂, if_pos rfl]
  refine ⟨s₃.putHead n.list ⟨if n.prev = none then n.next else h.first, h.count - 1⟩,
    ?_, fun j => ?_, fun k => ?_, ?_, ?_, ?_⟩
  · rw [unlink_eq, Step.bind_of_ok (node_run hn), Step.bind_of_ok (editNode_run hn _),
      Step.bind_of_ok run₂, Step.bind_of_ok run₃]
    exact shorten_run hh₃ pos
  · rw [node?_putHead, nodes₃, nodes₂, nodes₁]
    by_cases hji : j = i
    · -- neither neighbour is the node itself
      subst hji
      rw [if_neg (fun e => (next j e).1 rfl), if_neg (fun e => (prev j e).1 rfl), if_pos rfl,
        if_pos rfl]
    · rw [if_neg hji, if_neg hji]
      by_cases hjp : n.prev = some j
      · rw [if_pos hjp, if_pos hjp, if_neg (fun e => (next j e).2.1 hjp)]
      · rw [if_neg hjp, if_neg hjp]
  · rw [heads_putHead hh₃]
    by_cases hk : k = n.list
    · rw [if_pos hk, if_pos hk]
    · rw [if_neg hk, if_neg hk, heads₃, heads₂, if_neg hk, heads_put]
  · rw [size_heads_putHead, heads₃, nheads₂, heads_put]
  · rw [size_slots_putHead, nslots₃, nslots₂, size_slots_put]
  · rw [vacant_putHead, vacant₃, vacant₂, vacant_put]

/-! ## Links that spell out lists -/

/-- The links of `s` spell out the lists `ls`, with at most the node `loose` on none of them. -/
structure Threaded (s : SlotLists α) (ls : Nat → List (Nat × α)) (loose : Option Nat) : Prop where
  head : ∀ l, l < s.heads.size → s.heads[l]? = some ⟨(ls l).head?.map (·.1), (ls l).length⟩
  beyond : ∀ l, s.heads.size ≤ l → ls l = []
  node : ∀ l pre i v post, ls l = pre ++ (i, v) :: post →
    s.node? i = some ⟨v, l, pre.getLast?.map (·.1), post.head?.map (·.1)⟩
  nodup : ∀ l, ((ls l).map (·.1)).Nodup
  placed : ∀ i n, loose ≠ some i → s.node? i = some n → (i, n.value) ∈ ls n.list
  loose_free : ∀ i, loose = some i → ∀ l v, (i, v) ∉ ls l
  vacant_nodup : s.vacant.Nodup
  mem_vacant : ∀ i, i ∈ s.vacant ↔ i < s.slots.size ∧ s.node? i = none

/-- The lists after `x` was put at the front of list `l`. -/
def pushed (ls : Nat → List (Nat × α)) (l : Nat) (x : Nat × α) : Nat → List (Nat × α) :=
  fun k => if k = l then x :: ls k else ls k

/-- The lists without node `i`. -/
def dropped (ls : Nat → List (Nat × α)) (i : Nat) : Nat → List (Nat × α) :=
  fun k => (ls k).filter fun x => x.1 ≠ i

/-- No number occurs twice in a list: what that says about the parts of a split. -/
theorem split_ne {pre post : List (Nat × α)}
    (nodup : ((pre ++ (i, v) :: post).map (·.1)).Nodup) :
    (∀ x ∈ pre, x.1 ≠ i) ∧ (∀ x ∈ post, x.1 ≠ i) ∧ ∀ x ∈ pre, ∀ y ∈ post, x.1 ≠ y.1 := by
  rw [List.map_append, List.map_cons, List.nodup_append] at nodup
  obtain ⟨-, hpost, hpre⟩ := nodup
  refine ⟨fun x hx => ?_, fun x hx e => ?_, fun x hx y hy => ?_⟩
  · exact hpre x.1 (List.mem_map_of_mem hx) i (List.mem_cons_self ..)
  · exact (List.nodup_cons.mp hpost).1 (List.mem_map.mpr ⟨x, hx, e⟩)
  · exact hpre x.1 (List.mem_map_of_mem hx) y.1 (List.mem_cons_of_mem _ (List.mem_map_of_mem hy))

theorem filter_split {pre post : List (Nat × α)}
    (nodup : ((pre ++ (i, v) :: post).map (·.1)).Nodup) :
    (pre ++ (i, v) :: post).filter (fun x => x.1 ≠ i) = pre ++ post := by
  obtain ⟨hpre, hpost, -⟩ := split_ne nodup
  have keep_pre : pre.filter (fun x => decide (x.1 ≠ i)) = pre := by
    rw [List.filter_eq_self]
    exact fun x hx => decide_eq_true (hpre x hx)
  have keep_post : post.filter (fun x => decide (x.1 ≠ i)) = post := by
    rw [List.filter_eq_self]
    exact fun x hx => decide_eq_true (hpost x hx)
  rw [List.filter_append, keep_pre, List.filter_cons, if_neg (by simp), keep_post]

/-- A place in two lists one after the other is a place in the second or in the first. -/
theorem split_append {A B pre post : List (Nat × α)} {y : Nat × α}
    (hsplit : A ++ B = pre ++ y :: post) :
    (∃ C, B = C ++ y :: post ∧ pre = A ++ C) ∨ ∃ D, A = pre ++ y :: D ∧ post = D ++ B := by
  rcases List.append_eq_append_iff.mp hsplit with ⟨C, hpre, hB⟩ | ⟨D, hA, hD⟩
  · exact Or.inl ⟨C, hB, hpre⟩
  · cases D with
    | nil =>
      refine Or.inl ⟨[], hD.symm, ?_⟩
      rw [hA, List.append_nil, List.append_nil]
    | cons d D =>
      obtain ⟨rfl, hpost⟩ := List.cons.inj hD
      exact Or.inr ⟨D, hA, hpost⟩

/-- The node a link of a head leads to is on that list. -/
theorem head_mem {xs : List (Nat × α)} {x : Nat} (hx : xs.head?.map (·.1) = some x) :
    ∃ w, (x, w) ∈ xs := by
  obtain ⟨⟨y, w⟩, hy, rfl⟩ := Option.map_eq_some_iff.mp hx
  exact ⟨w, List.mem_of_head? hy⟩

theorem last_mem {xs : List (Nat × α)} {x : Nat} (hx : xs.getLast?.map (·.1) = some x) :
    ∃ w, (x, w) ∈ xs := by
  obtain ⟨⟨y, w⟩, hy, rfl⟩ := Option.map_eq_some_iff.mp hx
  exact ⟨w, List.mem_of_getLast? hy⟩

/-- Putting a node at the front: each node behind it keeps its neighbours, but for the first of
    them, which gets the new node before it. -/
theorem neighbours_of_front {xs pre post : List (Nat × α)} {p : Nat × α} {w : α}
    (nodup : (xs.map (·.1)).Nodup) (hsplit : (i, v) :: xs = p :: pre ++ (j, w) :: post) :
    xs = pre ++ (j, w) :: post ∧ ((p :: pre).getLast?.map (·.1)) =
      if xs.head?.map (·.1) = some j then some i else pre.getLast?.map (·.1) := by
  rw [List.cons_append] at hsplit
  obtain ⟨rfl, rfl⟩ := List.cons.inj hsplit
  refine ⟨rfl, ?_⟩
  cases pre with
  | nil => rw [if_pos (by simp)]; rfl
  | cons q pre =>
    -- the old first node is another one, since no number occurs twice
    have hqj : q.1 ≠ j := by
      rw [List.cons_append, List.map_cons, List.nodup_cons] at nodup
      intro e
      exact nodup.1 (by rw [e]; simp)
    rw [if_neg (by simpa using hqj)]
    simp

/-- Closing the gap that a node leaves: each other node keeps its neighbours, but for the node
    before the gap, which gets the first node behind it, and the node behind it, which gets the
    last node before it. -/
theorem neighbours_of_gap {A B pre post : List (Nat × α)} {w : α}
    (nodup : ((A ++ (i, v) :: B).map (·.1)).Nodup) (hsplit : A ++ B = pre ++ (j, w) :: post) :
    ∃ pre' post', A ++ (i, v) :: B = pre' ++ (j, w) :: post' ∧
      pre.getLast?.map (·.1) = (if B.head?.map (·.1) = some j then A.getLast?.map (·.1)
        else pre'.getLast?.map (·.1)) ∧
      post.head?.map (·.1) = (if A.getLast?.map (·.1) = some j then B.head?.map (·.1)
        else post'.head?.map (·.1)) := by
  obtain ⟨-, -, neAB⟩ := split_ne nodup
  rcases split_append hsplit with ⟨C, rfl, rfl⟩ | ⟨D, rfl, rfl⟩
  · -- the node is behind the gap
    refine ⟨A ++ (i, v) :: C, post, by simp, ?_, ?_⟩
    · cases C with
      | nil => rw [if_pos (by simp), List.append_nil]
      | cons c C =>
        have hcj : c.1 ≠ j := by
          rw [List.map_append, List.map_cons, List.nodup_append] at nodup
          have tail := (List.nodup_cons.mp nodup.2.1).2
          rw [List.cons_append, List.map_cons, List.nodup_cons] at tail
          intro e
          exact tail.1 (by rw [e]; simp)
        rw [if_neg (by simpa using hcj)]
        simp [List.getLast?_append, List.getLast?_cons]
    · have hlast : A.getLast?.map (·.1) ≠ some j := by
        intro e
        obtain ⟨w', hw'⟩ := last_mem e
        exact neAB _ hw' (j, w) (by simp) rfl
      rw [if_neg hlast]
  · -- the node is before the gap
    refine ⟨pre, D ++ (i, v) :: B, by simp, ?_, ?_⟩
    · have hhead : B.head?.map (·.1) ≠ some j := by
        intro e
        obtain ⟨w', hw'⟩ := head_mem e
        exact neAB (j, w) (by simp) _ hw' rfl
      rw [if_neg hhead]
    · cases D with
      | nil => rw [if_pos (by simp), List.nil_append]
      | cons d D =>
        have hlast : (pre ++ (j, w) :: d :: D).getLast?.map (·.1) ≠ some j := by
          rw [List.append_assoc, List.map_append, List.nodup_append] at nodup
          have tail := (List.nodup_cons.mp nodup.2.1).1
          intro e
          rw [List.getLast?_append, List.getLast?_cons_cons] at e
          obtain ⟨w', hw'⟩ : ∃ w', (j, w') ∈ d :: D := last_mem (by simpa using e)
          exact tail (List.mem_map.mpr ⟨(j, w'), List.mem_append_left _ hw', rfl⟩)
        rw [if_neg hlast]
        simp

namespace Threaded

theorem node_of_mem (t : Threaded s ls loose) (hm : (i, v) ∈ ls l) :
    ∃ n, s.node? i = some n ∧ n.value = v ∧ n.list = l := by
  obtain ⟨pre, post, hsplit⟩ := List.append_of_mem hm
  exact ⟨_, t.node l pre i v post hsplit, rfl, rfl⟩

theorem lt_of_mem (t : Threaded s ls loose) {x : Nat × α} (hm : x ∈ ls l) : l < s.heads.size := by
  apply Nat.lt_of_not_le
  intro hge
  rw [t.beyond l hge] at hm
  exact absurd hm List.not_mem_nil

/-- A node is on one list only, and has one value. -/
theorem unique (t : Threaded s ls loose) {k : Nat} {w : α} (hv : (i, v) ∈ ls l)
    (hw : (i, w) ∈ ls k) : k = l ∧ w = v := by
  obtain ⟨n, hn, hnv, hnl⟩ := t.node_of_mem hv
  obtain ⟨m, hm, hmw, hmk⟩ := t.node_of_mem hw
  obtain rfl : n = m := Option.some.inj (hn.symm.trans hm)
  exact ⟨hmk.symm.trans hnl, hmw.symm.trans hnv⟩

/-- What is on two lists has two numbers. -/
theorem ne_of_mem (t : Threaded s ls loose) {k : Nat} {w : α} (hv : (i, v) ∈ ls l)
    (hw : (j, w) ∈ ls k) (h : k ≠ l) : i ≠ j := by
  rintro rfl
  exact h (t.unique hv hw).1

/-- Lists that a node is not on are as before without it. -/
theorem dropped_ne (t : Threaded s ls loose) {k : Nat} (hm : (i, v) ∈ ls l) (h : k ≠ l) :
    dropped ls i k = ls k := by
  rw [dropped, List.filter_eq_self]
  exact fun x hx => decide_eq_true (t.ne_of_mem hm hx h).symm

end Threaded

/-- The same slots are taken as before, and the nodes there, but for node `i`, have their values
    and are on their lists. -/
structure Rewired (s s' : SlotLists α) (i : Nat) : Prop where
  slots : s'.slots.size = s.slots.size
  vacant : s'.vacant = s.vacant
  taken : ∀ j, s'.node? j = none ↔ s.node? j = none
  same : ∀ j m, j ≠ i → s'.node? j = some m →
    ∃ m', s.node? j = some m' ∧ m'.value = m.value ∧ m'.list = m.list

namespace Rewired

variable {s' : SlotLists α} {m : Node α}

/-- Writing links only, and only to nodes that are there. -/
theorem of_nodes (hn : s.node? i = some n) (hn' : s'.node? i = some m)
    (slots : s'.slots.size = s.slots.size) (vacant : s'.vacant = s.vacant)
    (nodes : ∀ j, j ≠ i → ∃ f : Node α → Node α,
      (∀ x, (f x).value = x.value ∧ (f x).list = x.list) ∧ s'.node? j = (s.node? j).map f) :
    Rewired s s' i := by
  refine ⟨slots, vacant, fun j => ?_, fun j x hj hx => ?_⟩
  · by_cases hj : j = i
    · rw [hj, hn, hn']
      simp
    · obtain ⟨f, -, hf⟩ := nodes j hj
      rw [hf, Option.map_eq_none_iff]
  · obtain ⟨f, keeps, hf⟩ := nodes j hj
    rw [hf] at hx
    obtain ⟨x', hx', rfl⟩ := Option.map_eq_some_iff.mp hx
    exact ⟨x', hx', (keeps x').1.symm, (keeps x').2.symm⟩

theorem mem_vacant (r : Rewired s s' i) (t : Threaded s ls loose) (j : Nat) :
    j ∈ s'.vacant ↔ j < s'.slots.size ∧ s'.node? j = none := by
  rw [r.vacant, r.slots, r.taken, t.mem_vacant]

/-- Every other node is on the list that it names, as it was before. -/
theorem placed (r : Rewired s s' i) (t : Threaded s ls loose) (hj : j ≠ i) (free : loose ≠ some j)
    (hm : s'.node? j = some m) : (j, m.value) ∈ ls m.list := by
  obtain ⟨m', hm', value, list⟩ := r.same j m hj hm
  have old := t.placed j m' free hm'
  rwa [value, list] at old

end Rewired

namespace Threaded

/-- Linking the loose node puts it at the front of a list. -/
theorem link (t : Threaded s ls (some i)) (hn : s.node? i = some n) (hl : l < s.heads.size) :
    ∃ s', linkFront i l s = .ok () s' ∧ Threaded s' (pushed ls l (i, n.value)) none ∧
      s'.heads.size = s.heads.size ∧ s'.slots.size = s.slots.size ∧ s'.vacant = s.vacant := by
  have free : ∀ l v, (i, v) ∉ ls l := t.loose_free i rfl
  obtain ⟨s', run, nodes, heads, nheads, nslots, vacant⟩ :=
    linkFront_run hn (t.head l hl) (by
      intro x hx
      obtain ⟨w, hmem⟩ := head_mem hx
      obtain ⟨m, hm, -, -⟩ := t.node_of_mem hmem
      exact ⟨fun e => free l w (e ▸ hmem), m, hm⟩)
  have rewired : Rewired s s' i := by
    refine .of_nodes hn ((nodes i).trans (if_pos rfl)) nslots vacant fun j hj => ?_
    rw [nodes, if_neg hj]
    split
    · exact ⟨fun m => { m with prev := some i }, fun _ => ⟨rfl, rfl⟩, rfl⟩
    · exact ⟨id, fun _ => ⟨rfl, rfl⟩, (Option.map_id_apply ..).symm⟩
  refine ⟨s', run, ?_, nheads, nslots, vacant⟩
  constructor
  case head =>
    intro k hk
    rw [heads, pushed]
    by_cases hkl : k = l
    · subst hkl
      simp
    · rw [if_neg hkl, if_neg hkl, t.head k (nheads ▸ hk)]
  case beyond =>
    intro k hk
    rw [nheads] at hk
    rw [pushed, if_neg (by omega), t.beyond k hk]
  case node =>
    intro k pre j w post hsplit
    rw [pushed] at hsplit
    rw [nodes]
    by_cases hkl : k = l
    · subst hkl
      rw [if_pos rfl] at hsplit
      cases pre with
      | nil =>
        -- the node itself, which is the first now
        obtain ⟨hiv, hpost⟩ := List.cons.inj hsplit
        obtain ⟨rfl, rfl⟩ := Prod.mk.inj hiv
        subst hpost
        rw [if_pos rfl]
        rfl
      | cons p pre =>
        obtain ⟨old, hprev⟩ := neighbours_of_front (t.nodup k) hsplit
        have hmem : (j, w) ∈ ls k := by rw [old]; simp
        have hji : j ≠ i := fun e => free k w (e ▸ hmem)
        rw [if_neg hji, t.node k pre j w post old, hprev]
        split <;> rfl
    · -- a node of another list is neither the node linked nor the old first one
      rw [if_neg hkl] at hsplit
      have hmem : (j, w) ∈ ls k := by rw [hsplit]; simp
      have hji : j ≠ i := fun e => free k w (e ▸ hmem)
      have hfirst : (ls l).head?.map (·.1) ≠ some j := by
        intro e
        obtain ⟨w', hw'⟩ := head_mem e
        exact t.ne_of_mem hw' hmem hkl rfl
      rw [if_neg hji, if_neg hfirst]
      exact t.node k pre j w post hsplit
  case nodup =>
    intro k
    rw [pushed]
    by_cases hkl : k = l
    · rw [if_pos hkl, List.map_cons, List.nodup_cons]
      refine ⟨fun hi => ?_, t.nodup k⟩
      obtain ⟨⟨j, w⟩, hx, rfl⟩ := List.mem_map.mp hi
      exact free k w hx
    · rw [if_neg hkl]
      exact t.nodup k
  case placed =>
    intro j m _ hm
    by_cases hji : j = i
    · subst hji
      rw [nodes, if_pos rfl] at hm
      obtain rfl := Option.some.inj hm
      simp [pushed]
    · have hmem := rewired.placed t hji (fun e => hji (Option.some.inj e).symm) hm
      rw [pushed]
      by_cases hkl : m.list = l
      · rw [if_pos hkl]
        exact List.mem_cons_of_mem _ hmem
      · rw [if_neg hkl]
        exact hmem
  case loose_free => intro j hj; exact absurd hj (by simp)
  case vacant_nodup => rw [vacant]; exact t.vacant_nodup
  case mem_vacant => exact rewired.mem_vacant t

/-- Unlinking a node takes it off its list and leaves it loose. -/
theorem unlink (t : Threaded s ls none) (hm : (i, v) ∈ ls l) :
    ∃ s', SlotLists.unlink i s = .ok () s' ∧ Threaded s' (dropped ls i) (some i) ∧
      (∃ n, s'.node? i = some n ∧ n.value = v) ∧
      s'.heads.size = s.heads.size ∧ s'.slots.size = s.slots.size ∧ s'.vacant = s.vacant := by
  obtain ⟨A, B, hAB⟩ := List.append_of_mem hm
  have hl := t.lt_of_mem hm
  have hn := t.node l A i v B hAB
  obtain ⟨neA, neB, neAB⟩ := split_ne (hAB ▸ t.nodup l)
  have inA : ∀ x ∈ A, x ∈ ls l := fun x hx => by rw [hAB]; exact List.mem_append_left _ hx
  have inB : ∀ x ∈ B, x ∈ ls l := fun x hx => by rw [hAB]; simp [hx]
  obtain ⟨s', run, nodes, heads, nheads, nslots, vacant⟩ :=
    unlink_run hn (t.head l hl) (by simp [hAB]) (by
      intro p hp
      obtain ⟨w, hw⟩ := last_mem hp
      obtain ⟨m, hm, -, -⟩ := t.node_of_mem (inA _ hw)
      exact ⟨neA _ hw, m, hm⟩) (by
      intro x hx
      obtain ⟨w, hw⟩ := head_mem hx
      obtain ⟨m, hm, -, -⟩ := t.node_of_mem (inB _ hw)
      refine ⟨neB _ hw, fun hp => ?_, m, hm⟩
      obtain ⟨w', hw'⟩ := last_mem hp
      exact neAB _ hw' _ hw rfl)
  have rewired : Rewired s s' i := by
    refine .of_nodes hn ((nodes i).trans (if_pos rfl)) nslots vacant fun j hj => ?_
    rw [nodes, if_neg hj]
    split
    · exact ⟨fun m => { m with next := B.head?.map (·.1) }, fun _ => ⟨rfl, rfl⟩, rfl⟩
    · split
      · exact ⟨fun m => { m with prev := A.getLast?.map (·.1) }, fun _ => ⟨rfl, rfl⟩, rfl⟩
      · exact ⟨id, fun _ => ⟨rfl, rfl⟩, (Option.map_id_apply ..).symm⟩
  have drop_l : dropped ls i l = A ++ B := by
    rw [dropped, hAB]
    exact filter_split (hAB ▸ t.nodup l)
  refine ⟨s', run, ?_, ⟨_, by rw [nodes, if_pos rfl], rfl⟩, nheads, nslots, vacant⟩
  constructor
  case head =>
    intro k hk
    rw [heads]
    by_cases hkl : k = l
    · subst hkl
      rw [if_pos rfl, drop_l, hAB]
      cases A with
      | nil => simp
      | cons a A =>
        simp only [List.cons_append, List.length_cons, List.length_append]
        simp
        omega
    · rw [if_neg hkl, t.dropped_ne hm hkl, t.head k (nheads ▸ hk)]
  case beyond =>
    intro k hk
    rw [nheads] at hk
    rw [t.dropped_ne hm (by omega), t.beyond k hk]
  case node =>
    intro k pre j w post hsplit
    rw [nodes]
    by_cases hkl : k = l
    · subst hkl
      rw [drop_l] at hsplit
      obtain ⟨pre', post', hold, hprev, hnext⟩ := neighbours_of_gap (hAB ▸ t.nodup k) hsplit
      have hji : j ≠ i := by
        rintro rfl
        rcases List.mem_append.mp (hsplit ▸ List.mem_append_right _ (List.mem_cons_self ..) :
          (j, w) ∈ A ++ B) with hA | hB
        · exact neA _ hA rfl
        · exact neB _ hB rfl
      rw [if_neg hji, t.node k pre' j w post' (hAB.trans hold), hprev, hnext]
      by_cases hA : A.getLast?.map (·.1) = some j
      · have hB : B.head?.map (·.1) ≠ some j := by
          intro e
          obtain ⟨w₁, h₁⟩ := last_mem hA
          obtain ⟨w₂, h₂⟩ := head_mem e
          exact neAB _ h₁ _ h₂ rfl
        rw [if_pos hA, if_pos hA, if_neg hB]
        rfl
      · rw [if_neg hA, if_neg hA]
        by_cases hB : B.head?.map (·.1) = some j
        · rw [if_pos hB, if_pos hB]
          rfl
        · rw [if_neg hB, if_neg hB]
    · -- a node of another list has no neighbour on this one
      rw [t.dropped_ne hm hkl] at hsplit
      have hmem : (j, w) ∈ ls k := by rw [hsplit]; simp
      have hij : i ≠ j := t.ne_of_mem hm hmem hkl
      have hprev : A.getLast?.map (·.1) ≠ some j := by
        intro e
        obtain ⟨w', hw'⟩ := last_mem e
        exact t.ne_of_mem (inA _ hw') hmem hkl rfl
      have hnext : B.head?.map (·.1) ≠ some j := by
        intro e
        obtain ⟨w', hw'⟩ := head_mem e
        exact t.ne_of_mem (inB _ hw') hmem hkl rfl
      rw [if_neg hij.symm, if_neg hprev, if_neg hnext]
      exact t.node k pre j w post hsplit
  case nodup =>
    intro k
    exact ((t.nodup k).sublist (List.filter_sublist.map _))
  case placed =>
    intro j m hj hm
    have hji : j ≠ i := fun e => hj (by rw [e])
    exact List.mem_filter.mpr ⟨rewired.placed t hji (by simp) hm, decide_eq_true hji⟩
  case loose_free =>
    intro j hj k w hmem
    obtain rfl := Option.some.inj hj
    exact of_decide_eq_true (List.mem_filter.mp hmem).2 rfl
  case vacant_nodup => rw [vacant]; exact t.vacant_nodup
  case mem_vacant => exact rewired.mem_vacant t

/-- A node in a slot that was vacant is loose. -/
theorem occupy (t : Threaded s ls none) (hi : s.node? i = none) {s' : SlotLists α}
    (heads : s'.heads = s.heads) (nodes : ∀ j, s'.node? j = if j = i then some n else s.node? j)
    (nodup : s'.vacant.Nodup)
    (vacant : ∀ j, j ∈ s'.vacant ↔ j < s'.slots.size ∧ s'.node? j = none) :
    Threaded s' ls (some i) := by
  have unlisted : ∀ l v, (i, v) ∉ ls l := by
    intro l v hmem
    obtain ⟨m, hm, -, -⟩ := t.node_of_mem hmem
    rw [hi] at hm
    exact absurd hm (by simp)
  constructor
  case head => intro l hl; rw [heads] at hl ⊢; exact t.head l hl
  case beyond => intro l hl; rw [heads] at hl; exact t.beyond l hl
  case node =>
    intro l pre j v post hsplit
    have hji : j ≠ i := by
      rintro rfl
      exact unlisted l v (by rw [hsplit]; simp)
    rw [nodes, if_neg hji]
    exact t.node l pre j v post hsplit
  case nodup => exact t.nodup
  case placed =>
    intro j m hj hm
    rw [nodes, if_neg (fun e => hj (by rw [e]))] at hm
    exact t.placed j m (by simp) hm
  case loose_free =>
    intro j hj
    obtain rfl := Option.some.inj hj
    exact unlisted
  case vacant_nodup => exact nodup
  case mem_vacant => exact vacant

/-- Claiming a slot for a node leaves the node loose there.  The slot was vacant. -/
theorem claim (t : Threaded s ls none) (n : Node α) :
    ∃ i s', SlotLists.claim n s = .ok i s' ∧ Threaded s' ls (some i) ∧ s'.node? i = some n ∧
      s.node? i = none ∧ i = s.vacant.head?.getD s.slots.size ∧
      s'.heads.size = s.heads.size ∧ s'.vacant = s.vacant.tail ∧
      s'.slots.size = max s.slots.size (i + 1) := by
  have hnd := t.vacant_nodup
  have hvac := t.mem_vacant
  cases hv : s.vacant with
  | nil =>
    -- a new slot, which no node can have been in
    rw [hv] at hvac
    have hi : s.node? s.slots.size = none := by
      rw [node?, Array.getElem?_eq_none (Nat.le_refl _)]
      rfl
    have nodes := node?_push (s := s) (some n) [] s.heads
    refine ⟨s.slots.size, ⟨s.slots.push (some n), [], s.heads⟩, ?_, ?_, ?_, hi, rfl, rfl, rfl, ?_⟩
    · rw [SlotLists.claim, hv]
    · refine t.occupy hi rfl nodes List.nodup_nil fun j => ?_
      rw [nodes, Array.size_push]
      constructor
      · intro h
        exact absurd h List.not_mem_nil
      · rintro ⟨hj, hnone⟩
        by_cases hjs : j = s.slots.size
        · rw [if_pos hjs] at hnone
          exact absurd hnone (by simp)
        · rw [if_neg hjs] at hnone
          exact (hvac j).mpr ⟨by omega, hnone⟩
    · rw [nodes, if_pos rfl]
    · show (s.slots.push (some n)).size = max s.slots.size (s.slots.size + 1)
      rw [Array.size_push]
      omega
  | cons i rest =>
    -- the slot freed last, which was on record once
    rw [hv] at hvac hnd
    obtain ⟨hlt, hi⟩ := (hvac i).mp (List.mem_cons_self ..)
    obtain ⟨hfresh, hrest⟩ := List.nodup_cons.mp hnd
    have nodes := node?_write hlt (some n) rest s.heads
    refine ⟨i, ⟨s.slots.setIfInBounds i (some n), rest, s.heads⟩, ?_, ?_, ?_, hi, rfl, rfl, rfl,
      ?_⟩
    · rw [SlotLists.claim, hv]
      exact if_pos hlt
    · refine t.occupy hi rfl nodes hrest fun j => ?_
      rw [nodes, Array.size_setIfInBounds]
      by_cases hj : j = i
      · subst hj
        simp [hfresh]
      · rw [if_neg hj, ← hvac j, List.mem_cons]
        simp [hj]
    · rw [nodes, if_pos rfl]
    · show (s.slots.setIfInBounds i (some n)).size = max s.slots.size (i + 1)
      rw [Array.size_setIfInBounds]
      omega

/-- Vacating the slot of the loose node. -/
theorem vacate (t : Threaded s ls (some i)) (hn : s.node? i = some n) :
    ∃ s', SlotLists.vacate i s = .ok () s' ∧ Threaded s' ls none ∧
      s'.heads.size = s.heads.size ∧ s'.vacant = i :: s.vacant ∧
      s'.slots.size = s.slots.size := by
  have hlt := lt_of_node hn
  have nodes := node?_write hlt none (i :: s.vacant) s.heads
  refine ⟨⟨s.slots.setIfInBounds i none, i :: s.vacant, s.heads⟩, rfl, ?_, rfl, rfl,
    Array.size_setIfInBounds⟩
  constructor
  case head => exact t.head
  case beyond => exact t.beyond
  case node =>
    intro l pre j v post hsplit
    have hji : j ≠ i := by
      rintro rfl
      exact t.loose_free j rfl l v (by rw [hsplit]; simp)
    rw [nodes, if_neg hji]
    exact t.node l pre j v post hsplit
  case nodup => exact t.nodup
  case placed =>
    intro j m _ hm
    by_cases hji : j = i
    · rw [nodes, if_pos hji] at hm
      exact absurd hm (by simp)
    · rw [nodes, if_neg hji] at hm
      exact t.placed j m (fun e => hji (Option.some.inj e).symm) hm
  case loose_free => intro j hj; exact absurd hj (by simp)
  case vacant_nodup =>
    refine List.nodup_cons.mpr ⟨fun hi => ?_, t.vacant_nodup⟩
    rw [t.mem_vacant i, hn] at hi
    exact absurd hi.2 (by simp)
  case mem_vacant =>
    intro j
    rw [nodes, Array.size_setIfInBounds, List.mem_cons]
    by_cases hji : j = i
    · subst hji
      simp [hlt]
    · rw [if_neg hji, t.mem_vacant j]
      simp [hji]

/-! ## The view -/

/-- No list is longer than the array of slots. -/
theorem length_le (t : Threaded s ls loose) (l : Nat) : (ls l).length ≤ s.slots.size := by
  have hsub : (ls l).map (·.1) ⊆ List.range s.slots.size := by
    intro i hi
    obtain ⟨⟨i, v⟩, hmem, rfl⟩ := List.mem_map.mp hi
    obtain ⟨n, hn, -, -⟩ := t.node_of_mem hmem
    exact List.mem_range.mpr (lt_of_node hn)
  have hle := (t.nodup l).length_le_of_subset hsub
  rwa [List.length_map, List.length_range] at hle

theorem chainFrom_eq (t : Threaded s ls loose) (post : List (Nat × α)) :
    ∀ (fuel : Nat) (pre : List (Nat × α)), ls l = pre ++ post → post.length ≤ fuel →
      s.chainFrom fuel (post.head?.map (·.1)) = post := by
  -- along what is left of the list; `pre` is what the walk has passed
  induction post with
  | nil =>
    intro fuel pre _ _
    cases fuel <;> rfl
  | cons x rest ih =>
    intro fuel pre hsplit hfuel
    obtain ⟨i, v⟩ := x
    cases fuel with
    | zero => exact absurd hfuel (by simp)
    | succ fuel =>
      show s.chainFrom (fuel + 1) (some i) = (i, v) :: rest
      rw [chainFrom, t.node l pre i v rest hsplit]
      show (i, v) :: s.chainFrom fuel (rest.head?.map (·.1)) = (i, v) :: rest
      rw [ih fuel (pre ++ [(i, v)]) (by rw [hsplit]; simp) (by simpa using hfuel)]

/-- The view of a list is the list that the links spell out. -/
theorem chain_eq (t : Threaded s ls loose) : s.chain = ls := by
  funext l
  rw [chain]
  by_cases hl : l < s.heads.size
  · rw [t.head l hl]
    exact t.chainFrom_eq (ls l) _ [] rfl (t.length_le l)
  · rw [t.beyond l (by omega), Array.getElem?_eq_none (by omega)]
    cases s.slots.size <;> rfl

end Threaded

/-! ## The operations, for the view -/

/-- The links spell out lists, and no node is loose. -/
def Sound (s : SlotLists α) : Prop := Threaded s s.chain none

theorem Threaded.sound (t : Threaded s ls none) : s.Sound := by
  rw [Sound, t.chain_eq]
  exact t

/-- Lists without nodes are sound. -/
theorem sound_empty (lists : Nat) : (empty lists : SlotLists α).Sound := by
  refine Threaded.sound (show Threaded (empty lists : SlotLists α) (fun _ => []) none from ?_)
  constructor
  case head =>
    intro l hl
    rw [empty, Array.size_replicate] at hl
    rw [empty, Array.getElem?_replicate, if_pos hl]
    rfl
  case beyond => intro l _; rfl
  case node => intro l pre i v post hsplit; exact absurd hsplit (by simp)
  case nodup => intro l; exact List.nodup_nil
  case placed => intro i n _ hn; exact absurd hn (by simp [node?, empty])
  case loose_free => intro i hi; exact absurd hi (by simp)
  case vacant_nodup => exact List.nodup_nil
  case mem_vacant => intro i; simp [empty]

@[simp] theorem chain_empty (lists l : Nat) : (empty lists : SlotLists α).chain l = [] := rfl

/-! ## The values of a list -/

theorem mem_values : v ∈ s.values l ↔ ∃ i, (i, v) ∈ s.chain l := by
  rw [values, List.mem_map]
  constructor
  · rintro ⟨⟨i, w⟩, hm, rfl⟩
    exact ⟨i, hm⟩
  · rintro ⟨i, hm⟩
    exact ⟨(i, v), hm, rfl⟩

theorem values_of_pushed {k : Nat} (chain : t.chain = pushed ls l (i, v)) :
    t.values k = if k = l then v :: (ls k).map (·.2) else (ls k).map (·.2) := by
  rw [values, chain, pushed, apply_ite (List.map _)]
  rfl

/-- Where a node is the only one with its value, dropping the node drops the value. -/
theorem map_dropped [DecidableEq α] {k : Nat} (only : ∀ x ∈ ls k, x.1 = i ↔ x.2 = v) :
    (dropped ls i k).map (·.2) = ((ls k).map (·.2)).filter fun w => w ≠ v := by
  have keep : (ls k).filter (fun x => x.1 ≠ i) =
      (ls k).filter ((fun w => decide (w ≠ v)) ∘ (·.2)) :=
    List.filter_congr fun x hx => decide_eq_decide.mpr (not_congr (only x hx))
  rw [dropped, keep, List.filter_map]

namespace Sound

/-- A node is found by its number exactly if it is on a list. -/
theorem value?_eq_some_iff (sound : s.Sound) : s.value? i = some v ↔ ∃ l, (i, v) ∈ s.chain l := by
  rw [value?, Option.map_eq_some_iff]
  constructor
  · rintro ⟨n, hn, rfl⟩
    exact ⟨n.list, sound.placed i n (by simp) hn⟩
  · rintro ⟨l, hl⟩
    obtain ⟨n, hn, hv, -⟩ := sound.node_of_mem hl
    exact ⟨n, hn, hv⟩

theorem value?_of_mem (sound : s.Sound) (hm : (i, v) ∈ s.chain l) : s.value? i = some v :=
  sound.value?_eq_some_iff.mpr ⟨l, hm⟩

theorem count_eq (sound : s.Sound) (l : Nat) : s.count l = (s.chain l).length := by
  rw [count]
  by_cases hl : l < s.heads.size
  · rw [sound.head l hl]
    rfl
  · rw [sound.beyond l (by omega), Array.getElem?_eq_none (by omega)]
    rfl

theorem count_values (sound : s.Sound) (l : Nat) : s.count l = (s.values l).length := by
  rw [sound.count_eq, values, List.length_map]

/-- A node stands on one list. -/
theorem list_unique (sound : s.Sound) {k : Nat} {u v : α} (hk : (i, u) ∈ s.chain k)
    (hl : (i, v) ∈ s.chain l) : k = l := by
  obtain ⟨pre, post, split⟩ := List.mem_iff_append.mp hk
  obtain ⟨pre', post', split'⟩ := List.mem_iff_append.mp hl
  have same := (sound.node k pre i u post split).symm.trans (sound.node l pre' i v post' split')
  exact congrArg Node.list (Option.some.inj same)

/-- Every slot is vacant or a node of a list, and no slot is both or twice the one. -/
theorem slots_perm (sound : s.Sound) : (List.range s.slots.size).Perm
    (s.vacant ++ (List.range s.heads.size).flatMap fun l => (s.chain l).map (·.1)) := by
  have on_list : ∀ i, i ∈ ((List.range s.heads.size).flatMap fun l => (s.chain l).map (·.1)) ↔
      i < s.slots.size ∧ s.node? i ≠ none := by
    intro i
    rw [List.mem_flatMap]
    constructor
    · rintro ⟨l, -, hi⟩
      obtain ⟨⟨j, v⟩, hm, rfl⟩ := List.mem_map.mp hi
      obtain ⟨pre, post, split⟩ := List.mem_iff_append.mp hm
      have there := sound.node l pre j v post split
      exact ⟨lt_of_node there, by rw [there]; simp⟩
    · rintro ⟨-, there⟩
      obtain ⟨n, hn⟩ := Option.ne_none_iff_exists'.mp there
      have placed := sound.placed i n (by simp) hn
      refine ⟨n.list, List.mem_range.mpr (Nat.lt_of_not_le fun beyond => ?_),
        List.mem_map.mpr ⟨_, placed, rfl⟩⟩
      rw [sound.beyond _ beyond] at placed
      exact List.not_mem_nil placed
  have on_lists_nodup :
      ((List.range s.heads.size).flatMap fun l => (s.chain l).map (·.1)).Nodup := by
    rw [List.Nodup, List.pairwise_flatMap]
    refine ⟨fun l _ => sound.nodup l, List.nodup_range.imp fun {k l} ne i hi j hj heq => ne ?_⟩
    subst heq
    obtain ⟨⟨i, u⟩, hu, rfl⟩ := List.mem_map.mp hi
    obtain ⟨⟨j, v⟩, hv, heq⟩ := List.mem_map.mp hj
    obtain rfl : j = i := heq
    exact sound.list_unique hu hv
  refine (List.perm_ext_iff_of_nodup List.nodup_range ?_).mpr fun i => ?_
  · refine List.nodup_append.mpr ⟨sound.vacant_nodup, on_lists_nodup, ?_⟩
    rintro i vacant j listed rfl
    exact ((on_list i).mp listed).2 ((sound.mem_vacant i).mp vacant).2
  · rw [List.mem_range, List.mem_append, sound.mem_vacant, on_list, ← and_or_left]
    exact (and_iff_left (Decidable.em _)).symm

/-- The slots that are not vacant are as many as there are nodes on all lists. -/
theorem total_eq (sound : s.Sound) :
    s.total = sumTo (fun l => (s.chain l).length) s.heads.size := by
  have slots := sound.slots_perm.length_eq
  rw [List.length_range, List.length_append, length_flatMap_range] at slots
  simp only [List.length_map] at slots
  rw [total, slots, Nat.add_sub_cancel_left]

theorem front_run (sound : s.Sound) (hl : l < s.heads.size) :
    front l s = .ok ((s.chain l).head?.map (·.1)) s := by
  rw [front, Step.bind_of_ok (head_run (sound.head l hl))]
  rfl

theorem isEmpty_run (sound : s.Sound) (hl : l < s.heads.size) :
    isEmpty l s = .ok (s.chain l).isEmpty s := by
  rw [isEmpty, Step.bind_of_ok (sound.front_run hl)]
  cases s.chain l <;> rfl

/-- Putting a value at the front of a list: its node gets the last freed slot, or else a new one. -/
theorem pushFront_spec (sound : s.Sound) (hl : l < s.heads.size) (v : α) :
    ∃ i t, pushFront l v s = .ok i t ∧ t.Sound ∧ t.heads.size = s.heads.size ∧
      i = s.vacant.head?.getD s.slots.size ∧ s.value? i = none ∧ t.vacant = s.vacant.tail ∧
      t.slots.size = max s.slots.size (i + 1) ∧ t.chain = pushed s.chain l (i, v) := by
  obtain ⟨i, s₁, run₁, t₁, hn, hi, hslot, heads₁, vacant₁, slots₁⟩ :=
    sound.claim ⟨v, l, none, none⟩
  obtain ⟨s₂, run₂, t₂, heads₂, slots₂, vacant₂⟩ := t₁.link hn (heads₁ ▸ hl)
  refine ⟨i, s₂, ?_, t₂.sound, heads₂.trans heads₁, hslot, ?_, vacant₂.trans vacant₁,
    slots₂.trans slots₁, t₂.chain_eq⟩
  · rw [pushFront, Step.bind_of_ok run₁, Step.bind_of_ok run₂]
    rfl
  · rw [value?, hi]
    rfl

/-- Removing a node takes it off its list, the others staying as they are. -/
theorem remove_spec (sound : s.Sound) (hm : (i, v) ∈ s.chain l) :
    ∃ t, remove i s = .ok (some v) t ∧ t.Sound ∧ t.heads.size = s.heads.size ∧
      t.vacant = i :: s.vacant ∧ t.slots.size = s.slots.size ∧ t.chain = dropped s.chain i := by
  obtain ⟨s₁, run₁, t₁, ⟨n, hn, -⟩, heads₁, slots₁, vacant₁⟩ := sound.unlink hm
  obtain ⟨s₂, run₂, t₂, heads₂, vacant₂, slots₂⟩ := t₁.vacate hn
  refine ⟨s₂, ?_, t₂.sound, heads₂.trans heads₁, by rw [vacant₂, vacant₁], slots₂.trans slots₁,
    t₂.chain_eq⟩
  rw [remove, Step.get_bind, sound.value?_of_mem hm]
  show (SlotLists.unlink i >>= fun _ => _) s = _
  rw [Step.bind_of_ok run₁, Step.bind_of_ok run₂]
  rfl

/-- Moving a node takes it off its list and puts it at the front of the other, or of the same. -/
theorem moveToFront_spec (sound : s.Sound) {k : Nat} (hm : (i, v) ∈ s.chain k)
    (hl : l < s.heads.size) :
    ∃ t, moveToFront i l s = .ok () t ∧ t.Sound ∧ t.heads.size = s.heads.size ∧
      t.vacant = s.vacant ∧ t.slots.size = s.slots.size ∧
      t.chain = pushed (dropped s.chain i) l (i, v) := by
  obtain ⟨s₁, run₁, t₁, ⟨n, hn, rfl⟩, heads₁, slots₁, vacant₁⟩ := sound.unlink hm
  obtain ⟨s₂, run₂, t₂, heads₂, slots₂, vacant₂⟩ := t₁.link hn (heads₁ ▸ hl)
  refine ⟨s₂, ?_, t₂.sound, heads₂.trans heads₁, vacant₂.trans vacant₁, slots₂.trans slots₁,
    t₂.chain_eq⟩
  rw [moveToFront, Step.bind_of_ok run₁]
  exact run₂

/-! ### The first node -/

section First

variable {k : Nat} {rest : List (Nat × α)}

/-- Without its first node a list is the rest of it. -/
theorem dropped_front (sound : s.Sound) (chain : s.chain l = (i, v) :: rest) :
    dropped s.chain i l = rest := by
  have nodup := sound.nodup l
  rw [chain, List.map_cons, List.nodup_cons] at nodup
  have others : ∀ x ∈ rest, decide (x.1 ≠ i) = true := by
    rintro ⟨j, w⟩ hx
    refine decide_eq_true ?_
    rintro rfl
    exact nodup.1 (List.mem_map.mpr ⟨_, hx, rfl⟩)
  rw [dropped, chain, List.filter_cons_of_neg (by simp)]
  exact List.filter_eq_self.mpr others

/-- The first node of a list is moved to another one. -/
theorem moveToFront_first (sound : s.Sound) (chain : s.chain l = (i, v) :: rest)
    (hk : k < s.heads.size) (ne : l ≠ k) :
    ∃ t, moveToFront i k s = .ok () t ∧ t.Sound ∧ t.heads.size = s.heads.size ∧
      t.values l = rest.map (·.2) ∧ t.values k = v :: s.values k ∧
      ∀ j, j ≠ l → j ≠ k → t.values j = s.values j := by
  have hm : (i, v) ∈ s.chain l := by
    rw [chain]
    exact List.mem_cons_self ..
  obtain ⟨t, run, sound', heads, -, -, chain'⟩ := sound.moveToFront_spec hm hk
  refine ⟨t, run, sound', heads, ?_, ?_, fun j hl hk => ?_⟩
  · rw [values_of_pushed chain', if_neg ne, sound.dropped_front chain]
  · rw [values_of_pushed chain', if_pos rfl, Threaded.dropped_ne sound hm ne.symm]
    rfl
  · rw [values_of_pushed chain', if_neg hk, Threaded.dropped_ne sound hm hl]
    rfl

end First

end Sound

end SlotLists

end NameCache
