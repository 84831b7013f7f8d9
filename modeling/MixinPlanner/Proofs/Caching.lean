/-
The plan cache changes no answer.

Whatever a cache holds was once resolved under the key where it stands (`Sound`), and keys stand for all that a resolution
depends on. So a plan found under the key of an inquiry is the plan of that inquiry (`Sound.answer_of_hit`), and every use of
the cache answers what would be answered without it.
- `ask_sound`: one inquiry to a cache that is sound;
- `run_transparent`: a whole run from the empty cache, where the cache may be cleared in between;
- `Filled.sound`: what earlier uses leave in a cache, in whatever order their steps came.
-/
import Mathlib.Tactic
import MixinPlanner.Proofs.CacheKey

namespace MixinPlanner

namespace PlanCache

/-! ## Plans under keys -/

theorem plan?_empty (key : ContentHash) : plan? .empty key = none := SortedBy.get?_empty key.text

theorem plan?_insert (cache : PlanCache) (key : ContentHash) (plan : Plan) (k : ContentHash) :
    plan? (cache.insert (key.text, plan)) k = if key = k then some plan else cache.plan? k := by
  have htext : key.text = k.text ↔ key = k := ⟨fun h => by cases key; cases k; cases h; rfl, fun h => h ▸ rfl⟩
  simp only [plan?, SortedBy.get?_insert, htext]

/-- what is under a key after a plan was kept: a plan that was there stays -/
theorem plan?_keep (cache : PlanCache) (key : ContentHash) (plan : Plan) (k : ContentHash) :
    (cache.keep key plan).2.plan? k = if key = k then some ((cache.plan? key).getD plan) else cache.plan? k := by
  unfold keep
  split
  next kept h =>
    split_ifs with hk
    · rw [← hk, h, Option.getD_some]
    · rfl
  next h => rw [plan?_insert, h, Option.getD_none]

theorem keep_fst (cache : PlanCache) (key : ContentHash) (plan : Plan) :
    (cache.keep key plan).1 = (cache.plan? key).getD plan := by
  unfold keep
  split
  next kept h => rw [h, Option.getD_some]
  next h => rw [h, Option.getD_none]

/-- a plan once kept is never replaced -/
theorem keep_mono {cache : PlanCache} {k : ContentHash} {kept : Plan} (key : ContentHash) (plan : Plan)
    (h : cache.plan? k = some kept) : (cache.keep key plan).2.plan? k = some kept := by
  rw [plan?_keep]
  split_ifs with hk
  · rw [hk, h, Option.getD_some]
  · exact h

/-! ## One inquiry -/

/-- an inquiry put to the cache -/
def ask (cache : PlanCache) (q : Inquiry) : Except (List Problem) Plan × PlanCache :=
  cache.resolve q.settings q.catalog q.context

theorem ask_of_hit {cache : PlanCache} {q : Inquiry} {plan : Plan} (h : cache.plan? q.key = some plan) :
    cache.ask q = (.ok plan, cache) := by
  unfold Inquiry.key at h
  simp only [ask, resolve, h]

theorem ask_of_rejected {cache : PlanCache} {q : Inquiry} {problems : List Problem} (h : cache.plan? q.key = none)
    (hanswer : q.answer = .error problems) : cache.ask q = (.error problems, cache) := by
  unfold Inquiry.key at h
  unfold Inquiry.answer at hanswer
  simp only [ask, resolve, h, hanswer]

theorem ask_of_resolved {cache : PlanCache} {q : Inquiry} {plan : Plan} (h : cache.plan? q.key = none)
    (hanswer : q.answer = .ok plan) : cache.ask q = (.ok plan, (cache.keep q.key plan).2) := by
  have hfirst : (cache.keep q.key plan).1 = plan := by rw [keep_fst, h, Option.getD_none]
  unfold Inquiry.key at h hfirst ⊢
  unfold Inquiry.answer at hanswer
  simp only [ask, resolve, h, hanswer, Prod.map, hfirst, id]

/-! ## Sound caches -/

/-- every plan of a cache is the answer to one of some inquiries, kept under its key -/
def Sound (asked : List Inquiry) (cache : PlanCache) : Prop :=
  ∀ key plan, cache.plan? key = some plan → ∃ q ∈ asked, q.key = key ∧ q.answer = .ok plan

theorem sound_empty (asked : List Inquiry) : Sound asked .empty := by
  intro key plan h
  rw [plan?_empty] at h
  cases h

theorem Sound.mono {asked asked' : List Inquiry} {cache : PlanCache} (h : cache.Sound asked)
    (hsub : ∀ q ∈ asked, q ∈ asked') : cache.Sound asked' := by
  intro key plan hplan
  obtain ⟨q, hq, hkey, hanswer⟩ := h key plan hplan
  exact ⟨q, hsub q hq, hkey, hanswer⟩

theorem Sound.keep {asked : List Inquiry} {cache : PlanCache} {q : Inquiry} {plan : Plan} (h : cache.Sound asked)
    (hq : q ∈ asked) (hanswer : q.answer = .ok plan) : (cache.keep q.key plan).2.Sound asked := by
  intro key plan' hplan
  rw [plan?_keep] at hplan
  split_ifs at hplan with hkey
  · cases hold : cache.plan? q.key with
    | none =>
      rw [hold, Option.getD_none, Option.some.injEq] at hplan
      exact ⟨q, hq, hkey, hplan ▸ hanswer⟩
    | some kept =>
      rw [hold, Option.getD_some, Option.some.injEq] at hplan
      exact h key plan' (hkey ▸ hplan ▸ hold)
  · exact h key plan' hplan

/-- what earlier uses leave in a cache. Those that find a plan, or are rejected, leave it alone; of the others each may keep
its plan whenever it comes to it. -/
inductive Filled : List Inquiry → PlanCache → Prop
  | empty : Filled [] .empty
  | unchanged {asked : List Inquiry} {cache : PlanCache} (q : Inquiry) (h : Filled asked cache) :
      Filled (q :: asked) cache
  | kept {asked : List Inquiry} {cache : PlanCache} (q : Inquiry) {plan : Plan} (h : Filled asked cache)
      (hanswer : q.answer = .ok plan) : Filled (q :: asked) (cache.keep q.key plan).2

/-- an inquiry from the first step to the last leaves such a cache -/
theorem Filled.ask {asked : List Inquiry} {cache : PlanCache} (h : Filled asked cache) (q : Inquiry) :
    Filled (q :: asked) (cache.ask q).2 := by
  cases hcached : cache.plan? q.key with
  | some plan =>
    rw [ask_of_hit hcached]
    exact h.unchanged q
  | none =>
    cases hanswer : q.answer with
    | error problems =>
      rw [ask_of_rejected hcached hanswer]
      exact h.unchanged q
    | ok plan =>
      rw [ask_of_resolved hcached hanswer]
      exact h.kept q hanswer

theorem Filled.sound {asked : List Inquiry} {cache : PlanCache} (h : Filled asked cache) : cache.Sound asked := by
  induction h with
  | empty => exact sound_empty []
  | unchanged q _ ih => exact ih.mono fun _ => List.mem_cons_of_mem q
  | kept q _ hanswer ih => exact (ih.mono fun _ => List.mem_cons_of_mem q).keep List.mem_cons_self hanswer

section Transparent

variable {asked : List Inquiry} {cache : PlanCache} (hread : ∀ q ∈ asked, q.WellRead)
  (hfree : CollisionFree (asked.flatMap Inquiry.hashed)) (hsound : cache.Sound asked)

include hread hfree

theorem same_of_key {p q : Inquiry} (hp : p ∈ asked) (hq : q ∈ asked) (h : p.key = q.key) : p.Same q := by
  refine Inquiry.key_inj (hread p hp) (hread q hq) (hfree.mono fun s hs => ?_) h
  rcases List.mem_append.1 hs with hs | hs
  · exact List.mem_flatMap.2 ⟨p, hp, hs⟩
  · exact List.mem_flatMap.2 ⟨q, hq, hs⟩

include hsound

/-- a plan found under the key of an inquiry is its answer -/
theorem Sound.answer_of_hit {q : Inquiry} {plan : Plan} (hq : q ∈ asked) (h : cache.plan? q.key = some plan) :
    q.answer = .ok plan := by
  obtain ⟨p, hp, hkey, hanswer⟩ := hsound q.key plan h
  rw [← hanswer]
  exact (same_of_key hread hfree hq hp hkey.symm).answer_eq

/-- **One inquiry to a sound cache** is answered as it is without it, and leaves the cache sound. -/
theorem ask_sound {q : Inquiry} (hq : q ∈ asked) : (cache.ask q).1 = q.answer ∧ (cache.ask q).2.Sound asked := by
  cases hcached : cache.plan? q.key with
  | some plan =>
    rw [ask_of_hit hcached]
    exact ⟨(Sound.answer_of_hit hread hfree hsound hq hcached).symm, hsound⟩
  | none =>
    cases hanswer : q.answer with
    | error problems =>
      rw [ask_of_rejected hcached hanswer]
      exact ⟨rfl, hsound⟩
    | ok plan =>
      rw [ask_of_resolved hcached hanswer]
      exact ⟨rfl, hsound.keep hq hanswer⟩

end Transparent

/-! ## Runs -/

/-- a use of the cache: an inquiry, or clearing it -/
inductive Use where
  | ask (q : Inquiry)
  | clear

/-- the inquiries of a run -/
def inquiries : List Use → List Inquiry
  | [] => []
  | .ask q :: rest => q :: inquiries rest
  | .clear :: rest => inquiries rest

/-- the answers to the inquiries of a run, one use after the other -/
def run : PlanCache → List Use → List (Except (List Problem) Plan)
  | _, [] => []
  | cache, .ask q :: rest => (cache.ask q).1 :: run (cache.ask q).2 rest
  | _, .clear :: rest => run .empty rest

theorem run_sound {asked : List Inquiry} (hread : ∀ q ∈ asked, q.WellRead)
    (hfree : CollisionFree (asked.flatMap Inquiry.hashed)) {cache : PlanCache} (hsound : cache.Sound asked)
    {uses : List Use} (hsub : ∀ q ∈ inquiries uses, q ∈ asked) :
    cache.run uses = (inquiries uses).map Inquiry.answer := by
  induction uses generalizing cache with
  | nil => rfl
  | cons use rest ih =>
    cases use with
    | ask q =>
      obtain ⟨hq, hrest⟩ := List.forall_mem_cons.1 hsub
      obtain ⟨hanswer, hnext⟩ := ask_sound hread hfree hsound hq
      rw [run, inquiries, List.map_cons, hanswer, ih hnext hrest]
    | clear =>
      rw [run, inquiries, ih (sound_empty asked) hsub]

/-- **The cache is transparent.** Every inquiry of a run from the empty cache has the answer that it has without the cache.
Inquiries with one key are about the same, since contexts and catalogs can be told from what is hashed of them, and the
three hashes from the layout of the key. -/
theorem run_transparent (uses : List Use) (hread : ∀ q ∈ inquiries uses, q.WellRead)
    (hfree : CollisionFree ((inquiries uses).flatMap Inquiry.hashed)) :
    run .empty uses = (inquiries uses).map Inquiry.answer ∧
      (∀ p ∈ inquiries uses, ∀ q ∈ inquiries uses, p.key = q.key → p.Same q) ∧
      (∀ c d : Context, Legible c.references → Legible d.references → c.toJson.compact = d.toJson.compact → c = d) ∧
      (∀ c d : Catalog, Legible c.references → Legible d.references → c.toJson.compact = d.toJson.compact → c = d) ∧
      ∀ p q : Inquiry, cacheFields p.settings p.catalog p.context = cacheFields q.settings q.catalog q.context →
        p.context.contentHash = q.context.contentHash ∧ p.catalog.digest = q.catalog.digest ∧
          p.settings.digest = q.settings.digest :=
  ⟨run_sound hread hfree (sound_empty _) fun _ hq => hq,
    fun _ hp _ hq => same_of_key hread hfree hp hq,
    fun _ _ => Context.compact_inj, fun _ _ => Catalog.compact_inj, fun _ _ => cacheFields_inj⟩

/-- an order is logged -/
def orderFacts : List Fact := [.mixin { mixin := ⟨"Logging", []⟩ }]

/-- a refund is said to cover an interface -/
def refundFacts : List Fact := [.completeInterface { interface := ⟨"Audited", []⟩ }]

theorem orderFacts_legible : Legible (⟨"Order", []⟩ :: orderFacts.flatMap Fact.references) := by
  have horder : TypeRef.Valid ⟨"Order", []⟩ := ⟨by decide, trivial⟩
  have hlogging : TypeRef.Valid ⟨"Logging", []⟩ := ⟨by decide, trivial⟩
  exact legible_cons.2 ⟨horder, legible_cons.2 ⟨hlogging, List.forall_mem_nil _⟩⟩

theorem refundFacts_legible : Legible (⟨"Refund", []⟩ :: refundFacts.flatMap Fact.references) := by
  have hrefund : TypeRef.Valid ⟨"Refund", []⟩ := ⟨by decide, trivial⟩
  have haudited : TypeRef.Valid ⟨"Audited", []⟩ := ⟨by decide, trivial⟩
  exact legible_cons.2 ⟨hrefund, legible_cons.2 ⟨haudited, List.forall_mem_nil _⟩⟩

/-- the order has a plan -/
def loggedOrder : Inquiry := ⟨{}, .empty, .build {} ⟨"Order", []⟩ orderFacts⟩

/-- the refund is rejected, as the catalog does not know the interface -/
def auditedRefund : Inquiry := ⟨{}, .empty, .build {} ⟨"Refund", []⟩ refundFacts⟩

theorem loggedOrder_wellRead : loggedOrder.WellRead :=
  ⟨⟨{}, ⟨"Order", []⟩, orderFacts, orderFacts_legible, rfl⟩, List.forall_mem_nil _⟩

theorem auditedRefund_wellRead : auditedRefund.WellRead :=
  ⟨⟨{}, ⟨"Refund", []⟩, refundFacts, refundFacts_legible, rfl⟩, List.forall_mem_nil _⟩

/-- the strings that are hashed for the keys of both, each once -/
def sampleStrings : List (List UInt8) :=
  [utf8 loggedOrder.context.toJson.compact, utf8 auditedRefund.context.toJson.compact,
    utf8 (Catalog.toJson .empty).compact, Settings.fields {}, cacheFields {} .empty loggedOrder.context,
    cacheFields {} .empty auditedRefund.context]

/-- their digests differ in the first word already -/
theorem sampleStrings_collisionFree : CollisionFree sampleStrings := collisionFree_of_nodup (by decide +kernel)

theorem loggedOrder_hashed : ∀ s ∈ loggedOrder.hashed, s ∈ sampleStrings := by
  simp [Inquiry.hashed, loggedOrder, sampleStrings]

theorem auditedRefund_hashed : ∀ s ∈ auditedRefund.hashed, s ∈ sampleStrings := by
  simp [Inquiry.hashed, auditedRefund, sampleStrings]

/-- the order is asked for again with other batch settings, and both once more after clearing -/
def sampleUses : List Use :=
  [.ask loggedOrder, .ask auditedRefund, .ask { loggedOrder with settings := { batch := { parallel := false } } },
    .clear, .ask auditedRefund, .ask loggedOrder]

theorem sampleUses_transparent : ∃ plan problems, loggedOrder.answer = .ok plan ∧
    auditedRefund.answer = .error problems ∧ (∀ q ∈ inquiries sampleUses, q.WellRead) ∧
      CollisionFree ((inquiries sampleUses).flatMap Inquiry.hashed) ∧
        run .empty sampleUses = [.ok plan, .error problems, .ok plan, .error problems, .ok plan] := by
  obtain ⟨plan, hplan⟩ : ∃ plan, loggedOrder.answer = .ok plan := ⟨_, rfl⟩
  obtain ⟨problems, hproblems⟩ : ∃ problems, auditedRefund.answer = .error problems := ⟨_, rfl⟩
  have hother : Inquiry.WellRead { loggedOrder with settings := { batch := { parallel := false } } } :=
    ⟨loggedOrder_wellRead.context, loggedOrder_wellRead.catalog⟩
  have hsame : Inquiry.answer { loggedOrder with settings := { batch := { parallel := false } } } =
      loggedOrder.answer := Inquiry.Same.answer_eq ⟨rfl, rfl, rfl, rfl⟩
  have hread : ∀ q ∈ inquiries sampleUses, q.WellRead := by
    simp only [sampleUses, inquiries, List.forall_mem_cons]
    exact ⟨loggedOrder_wellRead, auditedRefund_wellRead, hother, auditedRefund_wellRead, loggedOrder_wellRead,
      List.forall_mem_nil _⟩
  have hfree : CollisionFree ((inquiries sampleUses).flatMap Inquiry.hashed) := by
    refine sampleStrings_collisionFree.mono (List.forall_mem_flatMap.2 ?_)
    simp only [sampleUses, inquiries, List.forall_mem_cons]
    exact ⟨loggedOrder_hashed, auditedRefund_hashed, loggedOrder_hashed, auditedRefund_hashed, loggedOrder_hashed,
      List.forall_mem_nil _⟩
  refine ⟨plan, problems, hplan, hproblems, hread, hfree, ?_⟩
  rw [(run_transparent sampleUses hread hfree).1]
  simp only [sampleUses, inquiries, List.map_cons, List.map_nil, hsame, hplan, hproblems]

end PlanCache

end MixinPlanner
