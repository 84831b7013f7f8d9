/-
What the hash of a plan covers cannot be changed without being noticed.

The target, the order of the mixins and the complete interfaces can be told from the bytes that are hashed (`hashed_inj`): the
text of a reference has no line feed in it, and lists can be told from their layout whatever is in them. So a plan that says
something else there and carries the hash of a trusted plan has another hash than it carries, unless the two strings collide.
- `Tampers`: another plan under the hash of a trusted one;
- `Tampers.hash_ne`: its hash is not the one that it carries;
- `tampering_detected`: no store is read in which it is the first plan that fails a check.
-/
import Mathlib.Tactic
import MixinPlanner.Proofs.FieldLayout
import MixinPlanner.Proofs.StoreReading

namespace MixinPlanner

/-! ## Texts of references -/

theorem lineFeed_not_mem_name {n : String} (hn : isName n = true) : '\n' ∉ n.toList := by
  obtain ⟨c, cs, hcs, hrun⟩ := TypeRef.exists_cons_of_isName hn
  rw [hcs]
  intro hmem
  have hblank := TypeRef.not_isNameRun_of_isBlank (c := '\n') (by decide)
  rw [hrun _ hmem] at hblank
  cases hblank

mutual

theorem TypeRef.lineFeed_not_mem_chars (t : TypeRef) (h : t.Valid) : '\n' ∉ t.chars := by
  match t with
  | .mk name [] => exact lineFeed_not_mem_name h.1
  | .mk name (a :: args) =>
    have hname := lineFeed_not_mem_name h.1
    have ha := TypeArg.lineFeed_not_mem_chars a h.2.1
    have hargs := TypeArg.lineFeed_not_mem_charsRest args h.2.2
    simp [TypeRef.chars, hname, ha, hargs]

theorem TypeArg.lineFeed_not_mem_charsRest (args : List TypeArg) (h : TypeRef.ValidAll args) :
    '\n' ∉ TypeArg.charsRest args := by
  match args with
  | [] => simp [TypeArg.charsRest]
  | a :: args =>
    have ha := TypeArg.lineFeed_not_mem_chars a h.1
    have hargs := TypeArg.lineFeed_not_mem_charsRest args h.2
    simp [TypeArg.charsRest, ha, hargs]

theorem TypeArg.lineFeed_not_mem_chars (a : TypeArg) (h : TypeRef.ValidArg a) : '\n' ∉ TypeArg.chars a := by
  match a with
  | .param p => simp [TypeArg.chars, lineFeed_not_mem_name h]
  | .closed t =>
    rw [TypeArg.chars]
    exact TypeRef.lineFeed_not_mem_chars t h

end

theorem TypeRef.lineFeed_not_mem_text {t : TypeRef} (h : t.Valid) : '\n' ∉ t.text.toList := by
  rw [TypeRef.text, String.toList_ofList]
  exact t.lineFeed_not_mem_chars h

/-- references that were read can be told from their texts -/
theorem texts_inj {ts us : List TypeRef} (hts : Legible ts) (hus : Legible us)
    (h : ts.map TypeRef.text = us.map TypeRef.text) : ts = us := by
  refine map_inj_of (fun t ht u hu => ?_) h
  exact TypeRef.text_inj (legible_iff_valid.1 hts t ht) (legible_iff_valid.1 hus u hu)

namespace Plan

/-! ## What is hashed -/

/-- the bytes that the hash of a plan's content is taken of -/
def hashed (p : Plan) : List UInt8 := hashedFields p.target p.order p.completeInterfaces

theorem computeHash_eq (p : Plan) : p.computeHash = .ofBytes p.hashed := rfl

theorem hashed_eq (p : Plan) : p.hashed = Fields.line "schema" (toString (planSchema : ℤ)) ++
    (Fields.line "target" p.target.text ++ (Fields.lines "mixins" (p.order.map TypeRef.text) ++
      Fields.lines "complete_interfaces" (p.completeInterfaces.map TypeRef.text))) := by
  simp only [hashed, hashedFields, Fields.int, Fields.text, Fields.list, Fields.empty, List.nil_append, List.append_assoc]

/-- of the references of a plan, those that its hash covers -/
theorem legible_hashed {p : Plan} (h : Legible p.references) :
    p.target.Valid ∧ Legible p.order ∧ Legible p.completeInterfaces := by
  obtain ⟨htarget, h⟩ := legible_cons.1 h
  obtain ⟨hmixins, h⟩ := legible_append.1 h
  refine ⟨htarget, List.forall_mem_map.2 fun m hm => ?_, (legible_append.1 h).1⟩
  exact legible_flatMap.1 hmixins m hm _ List.mem_cons_self

/-- **The target, the order and the complete interfaces of a plan can be told from what is hashed.** -/
theorem hashed_inj {p q : Plan} (hp : Legible p.references) (hq : Legible q.references) (h : p.hashed = q.hashed) :
    p.target = q.target ∧ p.order = q.order ∧ p.completeInterfaces = q.completeInterfaces := by
  obtain ⟨htarget, horder, hcomplete⟩ := legible_hashed hp
  obtain ⟨htarget', horder', hcomplete'⟩ := legible_hashed hq
  rw [hashed_eq, hashed_eq] at h
  obtain ⟨target_eq, h⟩ := Fields.line_append_inj (TypeRef.lineFeed_not_mem_text htarget)
    (TypeRef.lineFeed_not_mem_text htarget') (List.append_cancel_left h)
  obtain ⟨order_eq, h⟩ := Fields.lines_append_inj h
  rw [← List.append_nil (Fields.lines _ (p.completeInterfaces.map _)),
    ← List.append_nil (Fields.lines _ (q.completeInterfaces.map _))] at h
  obtain ⟨complete_eq, -⟩ := Fields.lines_append_inj h
  exact ⟨TypeRef.text_inj htarget htarget' target_eq, texts_inj horder horder' order_eq,
    texts_inj hcomplete hcomplete' complete_eq⟩

/-! ## Plans under the hash of others -/

/-- a plan that says something else than another where the hash covers it, and carries the schema and the hash of that one -/
structure Tampers (q p : Plan) : Prop where
  schema : q.schema = p.schema
  contentHash : q.contentHash = p.contentHash
  changed : q.target ≠ p.target ∨ q.order ≠ p.order ∨ q.completeInterfaces ≠ p.completeInterfaces

/-- a plan under the hash of a trusted one has another hash -/
theorem Tampers.hash_ne {p q : Plan} (h : q.Tampers p) (hp : p.Storable) (hq : Legible q.references)
    (hfree : CollisionFree [p.hashed, q.hashed]) : q.computeHash ≠ q.contentHash := by
  intro hhash
  have hcomputed : p.computeHash = q.computeHash := by rw [hp.hash, hhash, h.contentHash]
  have hhashed : p.hashed = q.hashed := hfree.eq_of_hash (by simp) (by simp) hcomputed
  obtain ⟨htarget, horder, hcomplete⟩ := hashed_inj (p.storable_iff.1 hp).1 hq hhashed
  rcases h.changed with hne | hne | hne
  · exact hne htarget.symm
  · exact hne horder.symm
  · exact hne hcomplete.symm

/-- what is refused about it is its hash -/
theorem Tampers.fails {p q : Plan} (h : q.Tampers p) (hp : p.Storable) (hq : Legible q.references)
    (hfree : CollisionFree [p.hashed, q.hashed]) (earlier : List Plan) (line : ℕ) :
    PlanSet.Fails earlier (line, q) (.hash line q.target q.contentHash q.computeHash) :=
  .hash (h.schema.trans hp.schema) (h.hash_ne hp hq hfree)

end Plan

namespace PlanSet

open MixinPlanner.Configuration (sales ownPlans_storable sales_legible)

/-- **Changes of what a hash covers are noticed.** The target, the order of the mixins and the complete interfaces of a plan can
be told from the bytes that are hashed. So if a plan differs in one of these from a plan that was read, and carries the schema
and the hash of that one, then it is what every store that comes to it is refused for, unless the two hashed strings collide.
The line that is written of it is such a store by itself. -/
theorem tampering_detected :
    (∀ p q : Plan, Legible p.references → Legible q.references → p.hashed = q.hashed →
      p.target = q.target ∧ p.order = q.order ∧ p.completeInterfaces = q.completeInterfaces) ∧
    ∀ bytes (s : PlanSet), read bytes = .ok s → ∀ p ∈ s, ∀ q : Plan, q.Tampers p → CollisionFree [p.hashed, q.hashed] →
      (∀ bytes' earlier number, Reaches bytes' earlier number q →
        read bytes' = .error (.hash number q.target q.contentHash q.computeHash)) ∧
      (Legible q.references → read (utf8 (Stream.writeRecords [q.toJson])) =
        .error (.hash 1 q.target q.contentHash q.computeHash)) := by
  refine ⟨fun _ _ => Plan.hashed_inj, fun bytes s hread p hp q htampers hfree => ?_⟩
  have hstorable := storable_of_read hread p hp
  have hreached : ∀ bytes' earlier number, Reaches bytes' earlier number q →
      read bytes' = .error (.hash number q.target q.contentHash q.computeHash) := by
    intro bytes' earlier number hreaches
    exact hreaches.read (htampers.fails hstorable (q.writable_iff.1 hreaches.writable).2 hfree _ _)
  refine ⟨hreached, fun hq => hreached _ _ _ (reaches_written (q.writable_iff.2 ⟨?_, hq⟩))⟩
  rw [htampers.schema, hstorable.schema]
  decide

/-- the plan of the sales configuration -/
def loggedPlan : Plan where
  schema := planSchema
  target := ⟨"Order", []⟩
  mixins := [{ mixin := ⟨"Logging", []⟩, kind := .extending, visibility := .exposed }]
  status := .clean
  contentHash := (Plan.hashedFields ⟨"Order", []⟩ [⟨"Logging", []⟩] []).hash

theorem loggedPlan_mem : loggedPlan ∈ sales.ownPlanSet {} := by
  show loggedPlan ∈ [loggedPlan]
  exact List.mem_singleton_self _

/-- its mixin moved to the complete interfaces, under the same hash -/
def movedPlan : Plan := { loggedPlan with mixins := [], completeInterfaces := [⟨"Logging", []⟩] }

theorem movedPlan_detected : read (utf8 (sales.ownPlanSet {}).write) = .ok (sales.ownPlanSet {}) ∧
    loggedPlan ∈ sales.ownPlanSet {} ∧ movedPlan.Tampers loggedPlan ∧
      CollisionFree [loggedPlan.hashed, movedPlan.hashed] ∧ Legible movedPlan.references ∧
        read (utf8 (Stream.writeRecords [movedPlan.toJson])) =
          .error (.hash 1 ⟨"Order", []⟩ loggedPlan.contentHash movedPlan.computeHash) := by
  have hread : read (utf8 (sales.ownPlanSet {}).write) = .ok (sales.ownPlanSet {}) :=
    read_written (ownPlans_storable sales_legible.1 sales_legible.2)
  have htampers : movedPlan.Tampers loggedPlan := ⟨rfl, rfl, .inr (.inl (by decide))⟩
  have hfree : CollisionFree [loggedPlan.hashed, movedPlan.hashed] := collisionFree_of_nodup (by decide +kernel)
  have hlegible : Legible movedPlan.references := by
    have horder : TypeRef.Valid ⟨"Order", []⟩ := ⟨by decide, trivial⟩
    have hlogging : TypeRef.Valid ⟨"Logging", []⟩ := ⟨by decide, trivial⟩
    exact legible_cons.2 ⟨horder, legible_cons.2 ⟨hlogging, List.forall_mem_nil _⟩⟩
  obtain ⟨-, hdetected⟩ := tampering_detected
  exact ⟨hread, loggedPlan_mem, htampers, hfree, hlegible,
    (hdetected _ _ hread _ loggedPlan_mem _ htampers hfree).2 hlegible⟩

end PlanSet

end MixinPlanner
