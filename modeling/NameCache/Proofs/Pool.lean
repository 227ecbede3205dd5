/-
  Both tables of a pool hold the same entries in the same order.

  Linking writes two links of the entry and nothing else about it; each table looks at its own link
  and the hashes alone, so neither step disturbs the other table.
-/
import NameCache.Pool
import NameCache.Proofs.Table

namespace NameCache

namespace Pool

variable {p : Pool} {entries entries' : Entries} {order : List Nat} {e : Nat}

/-- Both tables hold the entries of `order`. -/
structure Sound (p : Pool) (entries : Entries) (order : List Nat) : Prop where
  names : p.names.Sound entries order
  encnames : p.encnames.Sound entries order
  names_kind : p.names.kind = .plain
  encnames_kind : p.encnames.kind = .encrypted

/-- A new pool holds nothing. -/
theorem sound_create {buckets locks : Nat} {pool : Pool} (made : create buckets locks = .ok pool)
    (entries : Entries) : pool.Sound entries [] := by
  rw [create, Table.create, Table.create] at made
  by_cases g : Table.Geometry buckets locks
  · rw [if_pos g, if_pos g] at made
    obtain rfl := Except.ok.inj made
    exact ⟨Table.sound_empty g entries, Table.sound_empty g entries, rfl, rfl⟩
  · rw [if_neg g] at made
    exact absurd made (by rintro ⟨⟩)

theorem onNames_of_ok {α : Type} {op : Step (Indexed Table) α} {a : α} {es : Entries} {t : Table}
    (run : op ⟨entries, p.names⟩ = .ok a ⟨es, t⟩) :
    onNames op ⟨entries, p⟩ = .ok a ⟨es, { p with names := t }⟩ := by
  rw [onNames, Step.focus, run]

theorem onEncnames_of_ok {α : Type} {op : Step (Indexed Table) α} {a : α} {es : Entries} {t : Table}
    (run : op ⟨entries, p.encnames⟩ = .ok a ⟨es, t⟩) :
    onEncnames op ⟨entries, p⟩ = .ok a ⟨es, { p with encnames := t }⟩ := by
  rw [onEncnames, Step.focus, run]

namespace Sound

/-- Soundness depends on the names and the links of the linked entries alone. -/
theorem congr (sound : p.Sound entries order)
    (same : ∀ e ∈ order, ∀ kind, (entries'.entry e).hash kind = (entries.entry e).hash kind ∧
      (entries'.entry e).bucketNode kind = (entries.entry e).bucketNode kind) :
    p.Sound entries' order where
  names := sound.names.congr (fun e he => (same e he _).1) fun e he => (same e he _).2
  encnames := sound.encnames.congr (fun e he => (same e he _).1) fun e he => (same e he _).2
  names_kind := sound.names_kind
  encnames_kind := sound.encnames_kind

/-- Linking an entry puts it in front of both tables. -/
theorem link_spec (sound : p.Sound entries order) (he : e < entries.size) (new : e ∉ order) :
    ∃ m n p', link e ⟨entries, p⟩ = .ok ()
        ⟨entries.modify e fun x => { x with nameNode := some m, encnameNode := some n }, p'⟩ ∧
      p'.Sound (entries.modify e fun x => { x with nameNode := some m, encnameNode := some n })
        (e :: order) := by
  obtain ⟨m, names, run₁, sound₁, kind₁, -, -⟩ := sound.names.insert_spec he new
  rw [sound.names_kind] at run₁ sound₁ kind₁
  have sound₂ : p.encnames.Sound (entries.modify e (·.withBucketNode .plain (some m))) order :=
    sound.encnames.congr
    (fun d _ => Entries.property_modify (·.hash _) (fun _ => Entry.hash_withBucketNode) d)
    (fun d _ => Entries.property_modify (·.bucketNode _) (fun _ => by
      rw [sound.encnames_kind]
      exact Entry.bucketNode_withBucketNode_ne (by decide)) d)
  obtain ⟨n, encnames, run₂, sound₃, kind₂, -, -⟩ :=
    sound₂.insert_spec (by rw [Entries.size_modify]; exact he) new
  rw [sound.encnames_kind] at run₂ sound₃ kind₂
  rw [Entries.modify_modify] at run₂ sound₃
  refine ⟨m, n, ⟨names, encnames⟩, ?_, ?_, sound₃, kind₁, kind₂⟩
  · rw [link, Step.bind_of_ok (onNames_of_ok run₁)]
    exact onEncnames_of_ok run₂
  · -- the second link is not one the table of plain names looks at
    refine sound₁.congr (fun d _ => ?_) fun d _ => ?_
    · exact Entries.property_modify_congr (·.hash _) (fun x => by rw [kind₁]; rfl) d
    · exact Entries.property_modify_congr (·.bucketNode _) (fun x => by rw [kind₁]; rfl) d

/-- Unlinking an entry takes it out of both tables. -/
theorem unlink_spec (sound : p.Sound entries order) (linked : e ∈ order) :
    ∃ p', unlink e ⟨entries, p⟩ = .ok ()
        ⟨entries.modify e fun x => { x with nameNode := none, encnameNode := none }, p'⟩ ∧
      p'.Sound (entries.modify e fun x => { x with nameNode := none, encnameNode := none })
        (order.erase e) := by
  obtain ⟨names, run₁, sound₁, kind₁, -, -⟩ := sound.names.remove_spec linked
  rw [sound.names_kind] at run₁ sound₁ kind₁
  have sound₂ : p.encnames.Sound (entries.modify e (·.withBucketNode .plain none)) order :=
    sound.encnames.congr
    (fun d _ => Entries.property_modify (·.hash _) (fun _ => Entry.hash_withBucketNode) d)
    (fun d _ => Entries.property_modify (·.bucketNode _) (fun _ => by
      rw [sound.encnames_kind]
      exact Entry.bucketNode_withBucketNode_ne (by decide)) d)
  obtain ⟨encnames, run₂, sound₃, kind₂, -, -⟩ := sound₂.remove_spec linked
  rw [sound.encnames_kind] at run₂ sound₃ kind₂
  rw [Entries.modify_modify] at run₂ sound₃
  refine ⟨⟨names, encnames⟩, ?_, ?_, sound₃, kind₁, kind₂⟩
  · rw [unlink, Step.bind_of_ok (onNames_of_ok run₁)]
    exact onEncnames_of_ok run₂
  · refine sound₁.congr (fun d _ => ?_) fun d _ => ?_
    · exact Entries.property_modify_congr (·.hash _) (fun x => by rw [kind₁]; rfl) d
    · exact Entries.property_modify_congr (·.bucketNode _) (fun x => by rw [kind₁]; rfl) d

end Sound

end Pool

end NameCache
