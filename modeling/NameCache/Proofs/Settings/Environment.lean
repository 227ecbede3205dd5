/-
  Settings read from an environment are read as the grammar says, but for values that are no UTF-8.

  An environment has byte strings, the grammar is one of texts.  What a lookup finds in an
  environment are the texts whose writing is there (`texts_eq_some_iff`), so a value that is the
  writing of no text is one that is not found.  That is the only way for a value to be passed over:
  the reading of texts has no part in it, since it never sees the value.
-/
import NameCache.Proofs.Settings.Reading
import NameCache.Proofs.Text.Utf8

namespace NameCache

namespace Settings

open Text.Utf8 (encode Encoded)

/-- The byte strings that a variable can have as its value: the writings of texts that it takes. -/
def Variable.Accepts (v : Variable) (bytes : Bytes) : Prop :=
  ∃ raw : String, bytes = encode raw.toList ∧ v.Takes raw

/-- The settings are what the variables say whose values are texts, and the rest is as by
    default. -/
structure Heeds (env : String → Option Bytes) (s : Settings) : Prop where
  buckets : ∀ raw : String, env Variable.buckets.name = some (encode raw.toList) →
    Number raw.toList s.buckets.toNat
  shared : ∀ raw : String, env Variable.shared.name = some (encode raw.toList) →
    Switch raw.toList s.shared
  enabled : ∀ raw : String, env Variable.enabled.name = some (encode raw.toList) →
    Switch raw.toList s.enabled
  no_buckets : (∀ bytes, env Variable.buckets.name = some bytes → ¬ Encoded bytes) →
    s.buckets = 0
  no_shared : (∀ bytes, env Variable.shared.name = some bytes → ¬ Encoded bytes) →
    s.shared = true
  no_enabled : (∀ bytes, env Variable.enabled.name = some bytes → ¬ Encoded bytes) →
    s.enabled = true
  minBuckets : s.minBuckets = 64
  vnodes : s.vnodes = 262144
  locks : s.locks = none

/-! ## The texts of an environment -/

/-- The value of a variable as a text, if it is set to one. -/
def texts (env : String → Option Bytes) (name : String) : Option String :=
  ((env name).bind Text.Utf8.strict?).map String.ofList

section Texts

variable {env other : String → Option Bytes} {name : String} {v : Variable}

theorem texts_eq_some_iff {raw : String} :
    texts env name = some raw ↔ env name = some (encode raw.toList) := by
  unfold texts
  rw [Option.map_eq_some_iff]
  constructor
  · rintro ⟨text, found, rfl⟩
    obtain ⟨bytes, set, read⟩ := Option.bind_eq_some_iff.mp found
    rw [set, Text.Utf8.strict?_eq_some_iff.mp read, String.toList_ofList]
  · intro set
    refine ⟨raw.toList, ?_, String.ofList_toList⟩
    rw [set]
    exact Text.Utf8.strict?_eq_some_iff.mpr rfl

theorem texts_eq_none_iff :
    texts env name = none ↔ ∀ bytes, env name = some bytes → ¬ Encoded bytes := by
  rw [Option.eq_none_iff_forall_ne_some]
  constructor
  · rintro not_found bytes set ⟨text, rfl⟩
    apply not_found (String.ofList text)
    rw [texts_eq_some_iff, String.toList_ofList]
    exact set
  · intro not_encoded raw found
    exact not_encoded _ (texts_eq_some_iff.mp found) ⟨_, rfl⟩

/-- Environments that have the same texts for a variable have it read alike. -/
theorem texts_congr
    (same : ∀ bytes, Encoded bytes → (other name = some bytes ↔ env name = some bytes)) :
    texts other name = texts env name := by
  apply Option.ext
  intro raw
  rw [texts_eq_some_iff, texts_eq_some_iff]
  exact same _ ⟨_, rfl⟩

/-- The texts that are found are taken exactly if what is set is accepted or no text at all. -/
theorem takes_texts_iff :
    (∀ raw, texts env v.name = some raw → v.Takes raw) ↔
      ∀ bytes, env v.name = some bytes → v.Accepts bytes ∨ ¬ Encoded bytes := by
  constructor
  · intro taken bytes set
    by_cases encoded : Encoded bytes
    · obtain ⟨text, rfl⟩ := encoded
      refine .inl ⟨String.ofList text, by rw [String.toList_ofList], taken _ ?_⟩
      rw [texts_eq_some_iff, String.toList_ofList]
      exact set
    · exact .inr encoded
  · intro accepted raw found
    have set := texts_eq_some_iff.mp found
    rcases accepted _ set with ⟨raw', same, takes⟩ | not_encoded
    · have found' : texts env v.name = some raw' := texts_eq_some_iff.mpr (same ▸ set)
      obtain rfl := Option.some.inj (found.symm.trans found')
      exact takes
    · exact absurd ⟨_, rfl⟩ not_encoded

/-- Heeding an environment is carrying its texts. -/
theorem heeds_iff (s : Settings) : s.Heeds env ↔ s.Carries (texts env) := by
  constructor
  · intro heeds
    exact {
      heeds with
      buckets := fun raw found => heeds.buckets raw (texts_eq_some_iff.mp found)
      shared := fun raw found => heeds.shared raw (texts_eq_some_iff.mp found)
      enabled := fun raw found => heeds.enabled raw (texts_eq_some_iff.mp found)
      no_buckets := fun unset => heeds.no_buckets (texts_eq_none_iff.mp unset)
      no_shared := fun unset => heeds.no_shared (texts_eq_none_iff.mp unset)
      no_enabled := fun unset => heeds.no_enabled (texts_eq_none_iff.mp unset) }
  · intro carries
    exact {
      carries with
      buckets := fun raw set => carries.buckets raw (texts_eq_some_iff.mpr set)
      shared := fun raw set => carries.shared raw (texts_eq_some_iff.mpr set)
      enabled := fun raw set => carries.enabled raw (texts_eq_some_iff.mpr set)
      no_buckets := fun unset => carries.no_buckets (texts_eq_none_iff.mpr unset)
      no_shared := fun unset => carries.no_shared (texts_eq_none_iff.mpr unset)
      no_enabled := fun unset => carries.no_enabled (texts_eq_none_iff.mpr unset) }

end Texts

/-! ## Reading an environment -/

theorem fromEnvironment_eq (env : String → Option Bytes) :
    fromEnvironment env = (readVariables (texts env) Variable.all {}).2 := rfl

/-- Nothing but variables is asked for. -/
theorem exists_of_asked {lookup : String → Option String} {vars : List Variable} {s : Settings}
    {name : String} (asked : name ∈ (readVariables lookup vars s).1) :
    ∃ v : Variable, v.name = name := by
  have listed : ∃ l : List Variable, (readVariables lookup vars s).1 = l.map (·.name) := by
    rcases readVariables_cases lookup vars s with ⟨-, read⟩ | ⟨before, v, _, _, _, _, _, _, read⟩
    · exact ⟨vars, congrArg Prod.fst read⟩
    · exact ⟨before ++ [v], congrArg Prod.fst read⟩
  obtain ⟨l, same⟩ := listed
  rw [same] at asked
  obtain ⟨v, -, named⟩ := List.mem_map.mp asked
  exact ⟨v, named⟩

/-- Reading an environment goes through exactly if every value that is set is in the grammar of its
    variable or is no UTF-8, and then the settings are what the values that are UTF-8 mean, and the
    defaults.  Otherwise it ends at the first value that is UTF-8 and not in the grammar, and tells
    it.  So a value that is no UTF-8 does not matter: it is as if the variable was not set. -/
theorem fromEnvironment_heeds_texts (env : String → Option Bytes) :
    (∀ s, fromEnvironment env = .ok s ↔ s.Heeds env) ∧
    ((∃ s, fromEnvironment env = .ok s) ↔
      ∀ (v : Variable) bytes, env v.name = some bytes → v.Accepts bytes ∨ ¬ Encoded bytes) ∧
    (∀ misread, fromEnvironment env = .error misread →
      ∃ before v after raw, Variable.all = before ++ v :: after ∧
        (∀ u ∈ before, ∀ bytes, env u.name = some bytes → u.Accepts bytes ∨ ¬ Encoded bytes) ∧
        env v.name = some (encode raw.toList) ∧ ¬ v.Takes raw ∧ misread = v.misreading raw) ∧
    ∀ other : String → Option Bytes,
      (∀ (v : Variable) bytes, Encoded bytes →
        (other v.name = some bytes ↔ env v.name = some bytes)) →
      fromEnvironment other = fromEnvironment env := by
  have all_accepted : AllTaken (texts env) Variable.all ↔
      ∀ (v : Variable) bytes, env v.name = some bytes → v.Accepts bytes ∨ ¬ Encoded bytes := by
    rw [allTaken_all]
    exact forall_congr' fun v => takes_texts_iff
  have congr (other : String → Option Bytes)
      (same : ∀ (v : Variable) bytes, Encoded bytes →
        (other v.name = some bytes ↔ env v.name = some bytes)) :
      fromEnvironment other = fromEnvironment env := by
    rw [fromEnvironment_eq, fromEnvironment_eq, readVariables_congr Variable.all {}]
    intro name asked
    obtain ⟨v, rfl⟩ := exists_of_asked asked
    exact texts_congr (same v)
  rw [← all_accepted]
  rcases readVariables_cases (texts env) Variable.all {} with
    ⟨taken, read⟩ | ⟨before, v, after, raw, split, others, found, bad, read⟩
  · have goes : fromEnvironment env = .ok (Variable.all.foldl (overlay (texts env)) {}) := by
      rw [fromEnvironment_eq, read]
    refine ⟨fun s => ?_, iff_of_true ⟨_, goes⟩ taken, fun misread stops => ?_, congr⟩
    · rw [heeds_iff, carries_iff, goes]
      exact ⟨fun same => ⟨taken, (Except.ok.inj same).symm⟩, fun same => congrArg _ same.2.symm⟩
    · rw [goes] at stops
      exact absurd stops (by simp)
  · have stops : fromEnvironment env = .error (v.misreading raw) := by
      rw [fromEnvironment_eq, read]
    have not_all : ¬ AllTaken (texts env) Variable.all := by
      intro all
      apply bad
      apply all v _ raw found
      rw [split]
      exact List.mem_append_right before List.mem_cons_self
    have fails (s : Settings) : fromEnvironment env ≠ .ok s := by
      rw [stops]
      simp
    refine ⟨fun s => ?_, iff_of_false (fun ⟨s, goes⟩ => fails s goes) not_all,
      fun misread misreads => ?_, congr⟩
    · rw [heeds_iff, carries_iff]
      exact iff_of_false (fails s) fun carries => not_all carries.1
    · rw [stops] at misreads
      exact ⟨before, v, after, raw, split, fun u hu => takes_texts_iff.mp (others u hu),
        texts_eq_some_iff.mp found, bad, (Except.error.inj misreads).symm⟩

/-- Not every value that is set is heeded: with a stray byte for the number of buckets, all settings
    are as by default. -/
theorem fromEnvironment_passes_over :
    ¬ ∀ (env : String → Option Bytes) (s : Settings), fromEnvironment env = .ok s →
      ∀ (v : Variable) bytes, env v.name = some bytes → v.Accepts bytes := by
  intro heeded
  let env : String → Option Bytes := fun name =>
    if name = Variable.buckets.name then some [0xFF] else none
  have goes : fromEnvironment env = .ok {} := by rfl
  obtain ⟨raw, written, -⟩ := heeded env {} goes .buckets [0xFF] (if_pos rfl)
  have read := Text.Utf8.strict?_eq_some_iff.mpr written
  have stray : Text.Utf8.strict? [0xFF] = none := by decide
  exact absurd (stray.symm.trans read) (by simp)

end Settings

end NameCache
