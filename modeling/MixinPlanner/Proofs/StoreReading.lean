/-
Which plan stores are trusted, what is read from them, and why the others are refused.

A store is trusted when all its lines can be read and the plans on them are `Consistent`: each has the schema and the hash
that it should have, and no two of them are different plans for one target. Then exactly those plans are read, so neither
the order of the lines nor their repetition matters.

Lines come first: a line that cannot be read decides even if a plan above it fails a check. After that the first plan that
`Fails` decides, by the first of its checks that it fails.
- `takeRecord_ok`, `takeRecord_error`: the step, for plans that can and that cannot stand with the earlier ones;
- `takeAll_eq_ok_iff`, `takeAll_eq_error_iff`: the run over all records;
- `Reaches.read`: a store is refused for the first plan that fails a check;
- `store_meaning`: the reading of a whole store.
-/
import Mathlib.Tactic
import MixinPlanner.Proofs.Members
import MixinPlanner.Proofs.PlanStore

namespace MixinPlanner

open MixinPlanner.Configuration (sales ownPlans_storable sales_legible)
open MixinPlanner.Stream (cut textOf Readable record? numbered FirstFault)

/-! ## References of a plan -/

/-- the type references of a planned mixin -/
def PlannedMixin.references (m : PlannedMixin) : List TypeRef := m.mixin :: (m.dependencies ++ m.introducedInterfaces)

/-- the type references of a plan -/
def Plan.references (p : Plan) : List TypeRef :=
  p.target :: (p.mixins.flatMap PlannedMixin.references ++ (p.completeInterfaces ++ p.warnings.flatMap Warning.references))

theorem PlannedMixin.writable_iff (m : PlannedMixin) : m.Writable ↔ Legible m.references := by
  rw [references, legible_cons, legible_append]
  exact ⟨fun h => ⟨h.mixin, h.dependencies, h.introducedInterfaces⟩, fun h => ⟨h.1, h.2.1, h.2.2⟩⟩

theorem Plan.writable_iff (p : Plan) : p.Writable ↔ p.schema < 2 ^ 32 ∧ Legible p.references := by
  rw [references, legible_cons, legible_append, legible_append, legible_flatMap, legible_flatMap]
  constructor
  · intro h
    exact ⟨h.schema, h.target, fun m hm => m.writable_iff.1 (h.mixins m hm), h.completeInterfaces, h.warnings⟩
  · rintro ⟨hschema, htarget, hmixins, hcomplete, hwarnings⟩
    exact ⟨hschema, htarget, fun m hm => m.writable_iff.2 (hmixins m hm), hcomplete, hwarnings⟩

theorem Plan.storable_iff (p : Plan) :
    p.Storable ↔ Legible p.references ∧ p.schema = planSchema ∧ p.computeHash = p.contentHash := by
  constructor
  · intro h
    exact ⟨(p.writable_iff.1 h.writable).2, h.schema, h.hash⟩
  · rintro ⟨hlegible, hschema, hhash⟩
    exact ⟨p.writable_iff.2 ⟨hschema ▸ (by decide : planSchema < 2 ^ 32), hlegible⟩, hschema, hhash⟩

namespace PlanSet

/-! ## One plan -/

/-- plans that can stand in one store -/
structure Consistent (ps : List Plan) : Prop where
  schema : ∀ p ∈ ps, p.schema = planSchema
  hash : ∀ p ∈ ps, p.computeHash = p.contentHash
  /-- plans for one target are the same plan -/
  agree : ∀ p ∈ ps, ∀ q ∈ ps, p.target = q.target → p = q

theorem consistent_nil : Consistent [] := ⟨List.forall_mem_nil _, List.forall_mem_nil _, List.forall_mem_nil _⟩

theorem Consistent.of_subset {ps qs : List Plan} (h : Consistent qs) (hsub : ∀ p ∈ ps, p ∈ qs) : Consistent ps :=
  ⟨fun p hp => h.schema p (hsub p hp), fun p hp => h.hash p (hsub p hp),
    fun p hp q hq => h.agree p (hsub p hp) q (hsub q hq)⟩

/-- the first check that a record fails after some plans: its schema, its hash, or that no earlier plan is another one for
its target -/
inductive Fails (earlier : List Plan) : ℕ × Plan → PlanStoreError → Prop
  | schema {line : ℕ} {p : Plan} (h : p.schema ≠ planSchema) :
      Fails earlier (line, p) (.schema line p.target p.schema)
  | hash {line : ℕ} {p : Plan} (hschema : p.schema = planSchema) (h : p.computeHash ≠ p.contentHash) :
      Fails earlier (line, p) (.hash line p.target p.contentHash p.computeHash)
  | conflict {line : ℕ} {p q : Plan} (hschema : p.schema = planSchema) (hhash : p.computeHash = p.contentHash)
      (hq : q ∈ earlier) (htarget : q.target = p.target) (h : q ≠ p) :
      Fails earlier (line, p) (.conflict ⟨p.target, q.contentHash, p.contentHash⟩)

/-- plans are consistent with one more, or the one more fails a check -/
theorem consistent_snoc {ps : List Plan} (h : Consistent ps) (r : ℕ × Plan) :
    Consistent (ps ++ [r.2]) ∨ ∃ e, Fails ps r e := by
  obtain ⟨line, p⟩ := r
  by_cases hschema : p.schema = planSchema
  · by_cases hhash : p.computeHash = p.contentHash
    · by_cases hagree : ∀ q ∈ ps, q.target = p.target → q = p
      · refine .inl ⟨?_, ?_, ?_⟩
        · exact List.forall_mem_append.2 ⟨h.schema, List.forall_mem_singleton.2 hschema⟩
        · exact List.forall_mem_append.2 ⟨h.hash, List.forall_mem_singleton.2 hhash⟩
        · intro q hq q' hq' htarget
          rw [List.mem_append, List.mem_singleton] at hq hq'
          rcases hq with hq | rfl <;> rcases hq' with hq' | rfl
          · exact h.agree q hq q' hq' htarget
          · exact hagree q hq htarget
          · exact (hagree q' hq' htarget.symm).symm
          · rfl
      · push Not at hagree
        obtain ⟨q, hq, htarget, hne⟩ := hagree
        exact .inr ⟨_, .conflict hschema hhash hq htarget hne⟩
    · exact .inr ⟨_, .hash hschema hhash⟩
  · exact .inr ⟨_, .schema hschema⟩

theorem Fails.not_consistent {ps : List Plan} {r : ℕ × Plan} {e : PlanStoreError} (h : Fails ps r e) {qs : List Plan}
    (hsub : ∀ p ∈ ps ++ [r.2], p ∈ qs) : ¬ Consistent qs := by
  intro hqs
  have hnow := hqs.of_subset hsub
  have hmem : r.2 ∈ ps ++ [r.2] := by simp
  cases h with
  | schema h => exact h (hnow.schema _ hmem)
  | hash _ h => exact h (hnow.hash _ hmem)
  | conflict _ _ hq htarget h => exact h (hnow.agree _ (List.mem_append_left _ hq) _ hmem htarget)

/-! ## The step -/

/-- a record that is consistent with those before it is taken -/
theorem takeRecord_ok {s : PlanSet} {ps : List Plan} (hs : s.Holds ps) {r : ℕ × Plan} (h : Consistent (ps ++ [r.2])) :
    ∃ s', s.takeRecord r = .ok s' ∧ s'.Holds (ps ++ [r.2]) := by
  obtain ⟨line, p⟩ := r
  have hmem : p ∈ ps ++ [p] := by simp
  have htake : s.takeRecord (line, p) = (s.add p).mapError .conflict := by
    rw [takeRecord, if_neg (not_not.2 (h.schema p hmem)), if_neg (not_not.2 (h.hash p hmem))]
  rcases s.add_cases p with ⟨hnew, hadd⟩ | ⟨hp, hadd⟩ | ⟨q, hq, htarget, hne, -⟩
  · refine ⟨s.insert p, by rw [htake, hadd]; rfl, fun q => ?_⟩
    rw [SortedBy.mem_insert_iff, List.mem_append, List.mem_singleton, hs q, or_comm]
    exact or_congr_left ⟨And.left, fun hq => ⟨hq, (hnew q ((hs q).2 hq)).symm⟩⟩
  · refine ⟨s, by rw [htake, hadd]; rfl, fun q => ?_⟩
    rw [List.mem_append, List.mem_singleton, hs q, iff_self_or]
    rintro rfl
    exact (hs q).1 hp
  · exact absurd (h.agree q (List.mem_append_left _ ((hs q).1 hq)) p hmem htarget) hne

/-- a record that fails a check is refused for it -/
theorem takeRecord_error {s : PlanSet} {ps : List Plan} (hs : s.Holds ps) {r : ℕ × Plan} {e : PlanStoreError}
    (h : Fails ps r e) : s.takeRecord r = .error e := by
  cases h with
  | schema h => rw [takeRecord, if_pos h]
  | hash hschema h => rw [takeRecord, if_neg (not_not.2 hschema), if_pos h]
  | @conflict line p q hschema hhash hq htarget hne =>
    rw [takeRecord, if_neg (not_not.2 hschema), if_neg (not_not.2 hhash)]
    rw [add_eq_error_iff.2 ⟨q, (hs q).2 hq, htarget, hne, rfl⟩]
    rfl

/-! ## The run -/

theorem takeAll_ok {rs : List (ℕ × Plan)} (h : Consistent (rs.map Prod.snd)) :
    ∃ s, rs.foldlM takeRecord SortedBy.empty = .ok s ∧ s.Holds (rs.map Prod.snd) := by
  refine Stream.taken_of_steps Consistent Holds (fun _ => Iff.rfl) ?_ ?_ h
  · exact fun h => h.of_subset fun p => List.mem_append_left _
  · exact fun hs h => takeRecord_ok hs h

/-- the first of some records that fails a check, after records that are consistent -/
inductive FirstFails : List (ℕ × Plan) → PlanStoreError → Prop
  | mk {before : List (ℕ × Plan)} {r : ℕ × Plan} {after : List (ℕ × Plan)} {e : PlanStoreError}
      (hbefore : Consistent (before.map Prod.snd)) (h : Fails (before.map Prod.snd) r e) :
      FirstFails (before ++ r :: after) e

theorem FirstFails.snoc {rs : List (ℕ × Plan)} {e : PlanStoreError} (h : FirstFails rs e) (r : ℕ × Plan) :
    FirstFails (rs ++ [r]) e := by
  cases h with
  | mk hbefore h =>
    rw [List.append_assoc, List.cons_append]
    exact .mk hbefore h

theorem consistent_or_firstFails (rs : List (ℕ × Plan)) : Consistent (rs.map Prod.snd) ∨ ∃ e, FirstFails rs e := by
  induction rs using List.reverseRecOn with
  | nil => exact .inl consistent_nil
  | append_singleton rs r ih =>
    rcases ih with hrs | ⟨e, hfirst⟩
    · rw [List.map_append, List.map_singleton]
      exact (consistent_snoc hrs r).imp id fun ⟨e, h⟩ => ⟨e, .mk hrs h⟩
    · exact .inr ⟨e, hfirst.snoc r⟩

theorem FirstFails.not_consistent {rs : List (ℕ × Plan)} {e : PlanStoreError} (h : FirstFails rs e) :
    ¬ Consistent (rs.map Prod.snd) := by
  cases h with
  | @mk before r after e hbefore h =>
    refine h.not_consistent fun p hp => ?_
    rw [List.map_append, List.map_cons, List.append_cons]
    exact List.mem_append_left _ hp

theorem takeAll_error {rs : List (ℕ × Plan)} {e : PlanStoreError} (h : FirstFails rs e) :
    rs.foldlM takeRecord SortedBy.empty = .error e := by
  cases h with
  | @mk before r after e hbefore h =>
    obtain ⟨s, hfold, hs⟩ := takeAll_ok hbefore
    exact Stream.refused_at hfold (takeRecord_error hs h)

/-- records are taken when their plans are consistent, and those are the plans of the set -/
theorem takeAll_eq_ok_iff {rs : List (ℕ × Plan)} {s : PlanSet} : rs.foldlM takeRecord SortedBy.empty = .ok s ↔
    Consistent (rs.map Prod.snd) ∧ s.Holds (rs.map Prod.snd) := by
  rcases consistent_or_firstFails rs with hrs | ⟨e, hfirst⟩
  · obtain ⟨s', hfold, hs'⟩ := takeAll_ok hrs
    rw [hfold, Except.ok.injEq, and_iff_right hrs]
    constructor
    · rintro rfl
      exact hs'
    · exact fun hs => SortedBy.eq_of_mem_iff fun p => (hs' p).trans (hs p).symm
  · rw [takeAll_error hfirst]
    exact iff_of_false (by simp) fun h => hfirst.not_consistent h.1

/-- taking records ends with an error at the first that fails a check -/
theorem takeAll_eq_error_iff {rs : List (ℕ × Plan)} {e : PlanStoreError} :
    rs.foldlM takeRecord SortedBy.empty = .error e ↔ FirstFails rs e := by
  refine ⟨fun h => ?_, takeAll_error⟩
  rcases consistent_or_firstFails rs with hrs | ⟨e', hfirst⟩
  · obtain ⟨s, hfold, -⟩ := takeAll_ok hrs
    rw [hfold] at h
    cases h
  · rw [takeAll_error hfirst, Except.error.injEq] at h
    exact h ▸ hfirst

/-! ## Stores -/

/-- the plans on the lines of a store, in their order -/
def stored (bytes : List UInt8) : List Plan := (cut bytes).filterMap (record? Plan.decode)

/-- a store that is trusted: every line can be read, and the plans on the lines are consistent -/
structure Trusted (bytes : List UInt8) : Prop where
  readable : ∀ line ∈ cut bytes, Readable Plan.decode line
  consistent : Consistent (stored bytes)

/-- why a store is refused: its first line that cannot be read, or else its first plan that fails a check -/
inductive Refused (bytes : List UInt8) : PlanStoreError → Prop
  | line {e : Stream.Error} (h : FirstFault Plan.decode 1 (cut bytes) e) : Refused bytes (.stream e)
  | plan {e : PlanStoreError} (hlines : ∀ line ∈ cut bytes, Readable Plan.decode line)
      (h : FirstFails (numbered Plan.decode 1 (cut bytes)) e) : Refused bytes e

theorem read_eq_ok_iff {bytes : List UInt8} {s : PlanSet} : read bytes = .ok s ↔ Trusted bytes ∧ s.Holds (stored bytes) := by
  cases hrecords : Stream.readRecords Plan.decode bytes with
  | ok rs =>
    obtain ⟨hlines, rfl⟩ := Stream.readRecords_eq_ok_iff.1 hrecords
    simp only [read, hrecords]
    rw [takeAll_eq_ok_iff, Stream.numbered_map_snd]
    exact and_congr_left' ⟨fun h => ⟨hlines, h⟩, Trusted.consistent⟩
  | error e =>
    have hfirst := Stream.readRecords_eq_error_iff.1 hrecords
    simp only [read, hrecords]
    exact iff_of_false (by simp) fun h => hfirst.not_readable h.1.readable

theorem read_eq_error_iff {bytes : List UInt8} {e : PlanStoreError} : read bytes = .error e ↔ Refused bytes e := by
  cases hrecords : Stream.readRecords Plan.decode bytes with
  | ok rs =>
    obtain ⟨hlines, rfl⟩ := Stream.readRecords_eq_ok_iff.1 hrecords
    simp only [read, hrecords]
    rw [takeAll_eq_error_iff]
    refine ⟨.plan hlines, fun h => ?_⟩
    cases h with
    | line h => exact absurd hlines h.not_readable
    | plan _ h => exact h
  | error e' =>
    have hfirst := Stream.readRecords_eq_error_iff.1 hrecords
    simp only [read, hrecords, Except.error.injEq]
    constructor
    · rintro rfl
      exact .line hfirst
    · intro h
      cases h with
      | line h => rw [Except.error.inj (hrecords.symm.trans (Stream.readRecords_eq_error_iff.2 h))]
      | plan hlines _ => exact absurd hlines hfirst.not_readable

theorem exists_read_iff {bytes : List UInt8} : (∃ s, read bytes = .ok s) ↔ Trusted bytes := by
  refine ⟨fun ⟨s, h⟩ => (read_eq_ok_iff.1 h).1, fun h => ?_⟩
  cases hread : read bytes with
  | ok s => exact ⟨s, rfl⟩
  | error e =>
    cases read_eq_error_iff.1 hread with
    | line hfirst => exact absurd h.readable hfirst.not_readable
    | plan _ hfirst =>
      have hstored : (numbered Plan.decode 1 (cut bytes)).map Prod.snd = stored bytes := Stream.numbered_map_snd
      exact absurd h.consistent (hstored ▸ hfirst.not_consistent)

theorem mem_stored {bytes : List UInt8} {p : Plan} :
    p ∈ stored bytes ↔ ∃ line ∈ cut bytes, record? Plan.decode line = some p := List.mem_filterMap

/-- two stores with the same lines, in whatever order and however often, are read alike -/
theorem read_congr {bytes bytes' : List UInt8} (h : ∀ line, line ∈ cut bytes ↔ line ∈ cut bytes') {s : PlanSet} :
    read bytes = .ok s ↔ read bytes' = .ok s := by
  have hstored : ∀ p, p ∈ stored bytes ↔ p ∈ stored bytes' := by
    intro p
    rw [mem_stored, mem_stored]
    exact exists_congr fun line => and_congr_left' (h line)
  have htrusted : Trusted bytes ↔ Trusted bytes' :=
    ⟨fun ht => ⟨fun line hline => ht.readable line ((h line).2 hline), ht.consistent.of_subset fun p => (hstored p).2⟩,
      fun ht => ⟨fun line hline => ht.readable line ((h line).1 hline), ht.consistent.of_subset fun p => (hstored p).1⟩⟩
  rw [read_eq_ok_iff, read_eq_ok_iff, htrusted]
  exact and_congr_right' (forall_congr' fun p => iff_congr Iff.rfl (hstored p))

/-- reading a store comes to the plan on a line after some others: the other lines of the store can be read, and the plans
before this one can stand -/
inductive Reaches (bytes : List UInt8) : List Plan → ℕ → Plan → Prop
  | mk {before after : List (List UInt8)} {line : List UInt8} {p : Plan} (hcut : cut bytes = before ++ line :: after)
      (hline : record? Plan.decode line = some p) (hlines : ∀ l ∈ before ++ after, Readable Plan.decode l)
      (hbefore : Consistent (before.filterMap (record? Plan.decode))) :
      Reaches bytes (before.filterMap (record? Plan.decode)) (before.length + 1) p

/-- a store is refused for the plan that it comes to if that plan fails a check -/
theorem Reaches.read {bytes : List UInt8} {earlier : List Plan} {number : ℕ} {p : Plan} {e : PlanStoreError}
    (h : Reaches bytes earlier number p) (hfails : Fails earlier (number, p) e) : read bytes = .error e := by
  cases h with
  | @mk before after line p hcut hline hlines hbefore =>
    have hall : ∀ l ∈ cut bytes, Readable Plan.decode l := by
      obtain ⟨hbefores, hafters⟩ := List.forall_mem_append.1 hlines
      rw [hcut, List.forall_mem_append, List.forall_mem_cons]
      exact ⟨hbefores, Stream.readable_of_record? hline, hafters⟩
    have hnumbered : numbered Plan.decode 1 (cut bytes) = numbered Plan.decode 1 before ++
        (before.length + 1, p) :: numbered Plan.decode (1 + before.length + 1) after := by
      rw [hcut, Stream.numbered_append, Stream.numbered_cons, hline, Nat.add_comm 1 before.length]
      rfl
    rw [← Stream.numbered_map_snd] at hbefore hfails
    refine read_eq_error_iff.2 (.plan hall ?_)
    rw [hnumbered]
    exact .mk hbefore hfails

/-! ## Stores that were written -/

theorem Reaches.writable {bytes : List UInt8} {earlier : List Plan} {number : ℕ} {p : Plan}
    (h : Reaches bytes earlier number p) : p.Writable := by
  cases h with
  | mk _ hline _ _ => exact Stream.yields_record? Plan.faithful.yields hline

/-- the line that is written of a plan holds that plan -/
theorem record?_written {p : Plan} (h : p.Writable) : record? Plan.decode (utf8 p.toJson.compact) = some p :=
  Stream.record?_object ((Plan.faithful.roundTrip (by decide)).read_back p h)

/-- the store of one plan comes to that plan -/
theorem reaches_written {p : Plan} (h : p.Writable) : Reaches (utf8 (Stream.writeRecords [p.toJson])) [] 1 p := by
  have hcut : cut (utf8 (Stream.writeRecords [p.toJson])) = [] ++ utf8 p.toJson.compact :: [] := by
    have happend := Stream.cut_writeRecords [p.toJson] []
    rwa [List.append_nil] at happend
  exact .mk hcut (record?_written h) (List.forall_mem_nil _) consistent_nil

/-- whatever is read from a store can be stored -/
theorem storable_of_read {bytes : List UInt8} {s : PlanSet} (h : read bytes = .ok s) : ∀ p ∈ s, p.Storable := by
  obtain ⟨htrusted, hholds⟩ := read_eq_ok_iff.1 h
  intro p hp
  have hstored := (hholds p).1 hp
  obtain ⟨line, -, hrecord⟩ := mem_stored.1 hstored
  exact ⟨Stream.yields_record? Plan.faithful.yields hrecord, htrusted.consistent.schema p hstored, htrusted.consistent.hash p hstored⟩

/-- **What a plan store means.** A store is read exactly if it is trusted, and then as the set of the plans on its lines. So
stores with the same lines are read alike, in whatever order and however often the lines stand in them. A store that is not
trusted is refused at its first line that cannot be read, or else at its first plan that fails a check, by the first check
that it fails.

A set is read back from the store that is written of it exactly if its plans have the schema and the hash that they should
have and texts that can be parsed stand for their references; those of any set that was read do. -/
theorem store_meaning :
    (∀ bytes (s : PlanSet), read bytes = .ok s ↔ Trusted bytes ∧ s.Holds (stored bytes)) ∧
      (∀ bytes, (∃ s, read bytes = .ok s) ↔ Trusted bytes) ∧
      (∀ bytes bytes', (∀ line, line ∈ cut bytes ↔ line ∈ cut bytes') →
        ∀ s : PlanSet, read bytes = .ok s ↔ read bytes' = .ok s) ∧
      (∀ bytes e, read bytes = .error e ↔ Refused bytes e) ∧
      (∀ s : PlanSet, read (utf8 s.write) = .ok s ↔
        ∀ p ∈ s, Legible p.references ∧ p.schema = planSchema ∧ p.computeHash = p.contentHash) ∧
      ∀ bytes (s : PlanSet), read bytes = .ok s → ∀ p ∈ s, Legible p.references := by
  refine ⟨fun _ _ => read_eq_ok_iff, fun _ => exists_read_iff, fun _ _ h _ => read_congr h,
    fun _ _ => read_eq_error_iff, fun s => ?_, ?_⟩
  · constructor
    · exact fun h p hp => p.storable_iff.1 (storable_of_read h p hp)
    · exact fun h => read_written fun p hp => p.storable_iff.2 (h p hp)
  · exact fun bytes s h p hp => (p.storable_iff.1 (storable_of_read h p hp)).1

/-- the plan of the sales configuration is read from its store, also if the store holds it twice; a line after it that is
not text is what the store is refused for -/
theorem salesStore_read :
    read (utf8 (sales.ownPlanSet {}).write) = .ok (sales.ownPlanSet {}) ∧
      read (utf8 (sales.ownPlanSet {}).write ++ utf8 (sales.ownPlanSet {}).write) = .ok (sales.ownPlanSet {}) ∧
      read (utf8 (sales.ownPlanSet {}).write ++ [255, 10]) = .error (.stream (.notText 2)) := by
  obtain ⟨hok, -, hcongr, herror, hwritten, -⟩ := store_meaning
  obtain ⟨hcatalog, htargets⟩ := sales_legible
  have hread := (hwritten (sales.ownPlanSet {})).2 fun p hp =>
    p.storable_iff.1 (ownPlans_storable hcatalog htargets p hp)
  have hcut := Stream.cut_writeRecords ((sales.ownPlanSet {}).toList.map Plan.toJson)
  have halone := hcut []
  rw [List.append_nil] at halone
  refine ⟨hread, (hcongr _ _ (fun line => ?_) _).2 hread, (herror _ _).2 (.line ?_)⟩
  · rw [write, hcut, halone]
    simp [cut]
  · have hlines := ((hok _ _).1 hread).1.readable
    rw [write, halone] at hlines
    rw [write, hcut]
    refine FirstFault.mk (fun l hl => hlines l (List.mem_append_left _ hl)) (.notText ?_)
    decide

end PlanSet

end MixinPlanner
