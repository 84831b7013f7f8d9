/-
The key of a resolution stands for everything that the resolution depends on.

An `Inquiry` is what the cache is asked: a context, a catalog and settings. Its key is the hash of a layout of three hashes,
and each layer can be told from what is hashed of it:
- `hex_inj`: the text of a digest determines the digest;
- `cacheFields_inj`: the layout of a key determines the three hashes in it;
- `Settings.fields_inj`: the layout of the settings determines the two that decide what is resolved;
- contexts and catalogs can be told from their written forms (`Context.compact_inj`, `Catalog.compact_inj`).
So where no two of the hashed strings collide (`CollisionFree`), inquiries with one key are about the same (`key_inj`), and
have the same answer (`Same.answer_eq`).
-/
import Mathlib.Tactic
import MixinPlanner.Cache
import MixinPlanner.Proofs.WrittenForm

namespace MixinPlanner

/-! ## Bytes and digests -/

theorem utf8_inj {s t : String} (h : utf8 s = utf8 t) : s = t :=
  String.toByteArray_inj.1 (ByteArray.ext (Array.toList_inj.1 h))

theorem utf8_append (s t : String) : utf8 (s ++ t) = utf8 s ++ utf8 t := by
  simp [utf8, String.toUTF8]

/-- codes of one length can be told apart in a row -/
theorem flatMap_inj {α β : Type} {f : α → List β} {n : ℕ} (hlen : ∀ a, (f a).length = n) (hf : Function.Injective f)
    {l l' : List α} (hl : l.length = l'.length) (h : l.flatMap f = l'.flatMap f) : l = l' := by
  induction l generalizing l' with
  | nil => exact (List.length_eq_zero_iff.1 hl.symm).symm
  | cons a l ih =>
    cases l' with
    | nil => cases hl
    | cons b l' =>
      rw [List.flatMap_cons, List.flatMap_cons] at h
      obtain ⟨hhead, htail⟩ := List.append_inj h ((hlen a).trans (hlen b).symm)
      rw [hf hhead, ih (Nat.succ.inj hl) htail]

namespace Sha256

theorem hexByte_length (b : UInt8) : (hexByte b).length = 2 := rfl

theorem hexByte_inj : Function.Injective hexByte := by
  intro a b h
  have hdigit : ∀ m < 16, ∀ n < 16, Nat.digitChar m = Nat.digitChar n → m = n := by decide
  have ha := a.toNat_lt
  have hb := b.toNat_lt
  simp only [hexByte, List.cons.injEq, and_true] at h
  have hhigh := hdigit _ (by omega) _ (by omega) h.1
  have hlow := hdigit _ (by omega) _ (by omega) h.2
  exact UInt8.toNat_inj.1 (by omega)

theorem bigEndian_length (count n : ℕ) : (bigEndian count n).length = count := by
  induction count generalizing n with
  | zero => rfl
  | succ count ih => simp [bigEndian, ih]

theorem bigEndian_inj {count m n : ℕ} (hm : m < 256 ^ count) (hn : n < 256 ^ count)
    (h : bigEndian count m = bigEndian count n) : m = n := by
  induction count generalizing m n with
  | zero => omega
  | succ count ih =>
    rw [pow_succ] at hm hn
    obtain ⟨hhigh, hlow⟩ := List.append_inj' h rfl
    have hhigh : m / 256 = n / 256 := ih (by omega) (by omega) hhigh
    have hlow : m % 256 = n % 256 := by
      have := congrArg UInt8.toNat (List.cons.inj hlow).1
      simpa using this
    omega

/-- the digits of one word -/
def hexWord (w : UInt32) : List Char := (bigEndian 4 w.toNat).flatMap hexByte

theorem hexWord_length (w : UInt32) : (hexWord w).length = 8 := rfl

theorem hexWord_inj : Function.Injective hexWord := by
  intro a b h
  have hbytes : bigEndian 4 a.toNat = bigEndian 4 b.toNat :=
    flatMap_inj hexByte_length hexByte_inj (by rw [bigEndian_length, bigEndian_length]) h
  exact UInt32.toNat_inj.1 (bigEndian_inj a.toNat_lt b.toNat_lt hbytes)

theorem Words.toList_inj {s t : Words} (h : s.toList = t.toList) : s = t := by
  simp only [toList, List.cons.injEq, and_true] at h
  cases s; cases t
  rw [mk.injEq]
  exact h

theorem hex_toList (message : List UInt8) : (hex message).toList = (digest message).toList.flatMap hexWord :=
  String.toList_ofList

theorem hex_length (message : List UInt8) : (hex message).toList.length = 64 := by
  rw [hex_toList]
  rfl

/-- the text of a digest says which digest it is -/
theorem hex_inj {m n : List UInt8} (h : hex m = hex n) : digest m = digest n := by
  have hdigits : (digest m).toList.flatMap hexWord = (digest n).toList.flatMap hexWord := by
    rw [← hex_toList, ← hex_toList, h]
  exact Words.toList_inj (flatMap_inj hexWord_length hexWord_inj rfl hdigits)

end Sha256

/-- no two different strings among some have one digest -/
def CollisionFree (strings : List (List UInt8)) : Prop :=
  ∀ a ∈ strings, ∀ b ∈ strings, Sha256.digest a = Sha256.digest b → a = b

theorem CollisionFree.mono {strings strings' : List (List UInt8)} (h : CollisionFree strings')
    (hsub : ∀ a ∈ strings, a ∈ strings') : CollisionFree strings :=
  fun a ha b hb => h a (hsub a ha) b (hsub b hb)

theorem CollisionFree.eq_of_hash {strings : List (List UInt8)} (h : CollisionFree strings) {a b : List UInt8}
    (ha : a ∈ strings) (hb : b ∈ strings) (heq : ContentHash.ofBytes a = ContentHash.ofBytes b) : a = b :=
  h a ha b hb (Sha256.hex_inj (ContentHash.mk.inj heq))

theorem collisionFree_of_nodup {strings : List (List UInt8)}
    (h : (strings.map fun s => (Sha256.digest s).a).Nodup) : CollisionFree strings :=
  fun _ ha _ hb heq => List.inj_on_of_nodup_map h ha hb (congrArg Sha256.Words.a heq)

/-! ## The layouts -/

/-- one field as a text -/
def fieldText (name value : String) : String := name ++ ":" ++ value ++ "\n"

theorem line_eq (name value : String) : Fields.line name value = utf8 (fieldText name value) := by
  simp only [Fields.line, fieldText, utf8_append]

/-- fields with values of one length can be told apart -/
theorem fieldText_append_inj {name value value' rest rest' : String}
    (hlen : value.toList.length = value'.toList.length)
    (h : fieldText name value ++ rest = fieldText name value' ++ rest') : value = value' ∧ rest = rest' := by
  have hchars := congrArg String.toList h
  simp only [fieldText, String.toList_append, List.append_assoc] at hchars
  obtain ⟨hvalue, hrest⟩ := List.append_inj (List.append_cancel_left (List.append_cancel_left hchars)) hlen
  exact ⟨String.toList_inj.1 hvalue, String.toList_inj.1 (List.append_cancel_left hrest)⟩

theorem cacheFields_eq (settings : Settings) (catalog : Catalog) (context : Context) :
    cacheFields settings catalog context = utf8 (fieldText "context" context.contentHash.text ++
      (fieldText "catalog" catalog.digest.text ++ (fieldText "config" settings.digest.text ++ ""))) := by
  simp only [cacheFields, Fields.text, Fields.empty, List.nil_append, line_eq, utf8_append, List.append_assoc]
  rw [show utf8 "" = [] by decide, List.append_nil]

theorem ofBytes_length (a b : List UInt8) :
    (ContentHash.ofBytes a).text.toList.length = (ContentHash.ofBytes b).text.toList.length := by
  rw [ContentHash.ofBytes, ContentHash.ofBytes, Sha256.hex_length, Sha256.hex_length]

/-- **The three hashes of a key can be told from its layout.** -/
theorem cacheFields_inj {settings settings' : Settings} {catalog catalog' : Catalog} {context context' : Context}
    (h : cacheFields settings catalog context = cacheFields settings' catalog' context') :
    context.contentHash = context'.contentHash ∧ catalog.digest = catalog'.digest ∧
      settings.digest = settings'.digest := by
  rw [cacheFields_eq, cacheFields_eq] at h
  obtain ⟨hcontext, h⟩ := fieldText_append_inj (ofBytes_length _ _) (utf8_inj h)
  obtain ⟨hcatalog, h⟩ := fieldText_append_inj (ofBytes_length _ _) h
  obtain ⟨hsettings, -⟩ := fieldText_append_inj (ofBytes_length _ _) h
  exact ⟨congrArg ContentHash.mk hcontext, congrArg ContentHash.mk hcatalog, congrArg ContentHash.mk hsettings⟩

/-- the settings that decide what is resolved, laid out -/
def Settings.fields (s : Settings) : Fields :=
  (Fields.empty.text "strict_dependencies" (truth s.strictDependencies)).text
    "suppress_generic_definitions" (truth s.suppressDefinitions)

theorem Settings.digest_eq (s : Settings) : s.digest = s.fields.hash := rfl

theorem Settings.fields_inj {s t : Settings} (h : s.fields = t.fields) :
    s.strictDependencies = t.strictDependencies ∧ s.suppressDefinitions = t.suppressDefinitions := by
  have htruth : ∀ a b a' b' : Bool, (Settings.mk a b {}).fields = (Settings.mk a' b' {}).fields → a = a' ∧ b = b' := by
    decide +kernel
  exact htruth _ _ _ _ h

/-! ## Inquiries -/

/-- what the cache is asked -/
structure Inquiry where
  settings : Settings
  catalog : Catalog
  context : Context

namespace Inquiry

/-- what is answered without a cache -/
def answer (q : Inquiry) : Except (List Problem) Plan := q.context.resolve q.settings q.catalog

/-- the key under which a plan is kept -/
def key (q : Inquiry) : ContentHash := cacheKey q.settings q.catalog q.context

/-- the byte strings that are hashed for the key -/
def hashed (q : Inquiry) : List (List UInt8) :=
  [utf8 q.context.toJson.compact, utf8 q.catalog.toJson.compact, q.settings.fields,
    cacheFields q.settings q.catalog q.context]

/-- a context of facts that were read, under any settings, and a catalog that was read -/
structure WellRead (q : Inquiry) : Prop where
  context : ∃ built target facts, Legible (target :: facts.flatMap Fact.references) ∧
    q.context = Context.build built target facts
  catalog : Legible q.catalog.references

/-- two inquiries are about the same, under settings that decide alike -/
structure Same (p q : Inquiry) : Prop where
  context : p.context = q.context
  catalog : p.catalog = q.catalog
  strictDependencies : p.settings.strictDependencies = q.settings.strictDependencies
  suppressDefinitions : p.settings.suppressDefinitions = q.settings.suppressDefinitions

theorem WellRead.legible {q : Inquiry} (h : q.WellRead) : Legible q.context.references := by
  obtain ⟨built, target, facts, hread, hcontext⟩ := h.context
  obtain ⟨htarget, hfacts⟩ := legible_cons.1 hread
  exact hcontext ▸ Context.legible_build built htarget (legible_flatMap.1 hfacts)

/-- **Inquiries with one key are about the same**, unless two of the strings hashed for them collide. -/
theorem key_inj {p q : Inquiry} (hp : p.WellRead) (hq : q.WellRead) (hfree : CollisionFree (p.hashed ++ q.hashed))
    (h : p.key = q.key) : p.Same q := by
  -- first the layout of the key itself, and then each of the three strings whose hashes stand in it
  have hfields : cacheFields p.settings p.catalog p.context = cacheFields q.settings q.catalog q.context :=
    hfree.eq_of_hash (by simp [hashed]) (by simp [hashed]) h
  obtain ⟨hcontext, hcatalog, hsettings⟩ := cacheFields_inj hfields
  rw [Settings.digest_eq, Settings.digest_eq] at hsettings
  have context_eq : utf8 p.context.toJson.compact = utf8 q.context.toJson.compact :=
    hfree.eq_of_hash (by simp [hashed]) (by simp [hashed]) hcontext
  have catalog_eq : utf8 p.catalog.toJson.compact = utf8 q.catalog.toJson.compact :=
    hfree.eq_of_hash (by simp [hashed]) (by simp [hashed]) hcatalog
  have settings_eq : p.settings.fields = q.settings.fields :=
    hfree.eq_of_hash (by simp [hashed]) (by simp [hashed]) hsettings
  obtain ⟨hstrict, hsuppress⟩ := Settings.fields_inj settings_eq
  exact ⟨Context.compact_inj hp.legible hq.legible (utf8_inj context_eq),
    Catalog.compact_inj hp.catalog hq.catalog (utf8_inj catalog_eq), hstrict, hsuppress⟩

end Inquiry

/-! ## What a resolution depends on -/

theorem DependencyGraph.build_congr {settings settings' : Settings}
    (h : settings.strictDependencies = settings'.strictDependencies) (catalog : Catalog) (context : Context) :
    build settings catalog context = build settings' catalog context := by
  have henter : enter settings = enter settings' := by
    funext catalog mixin i g dependency
    simp only [enter, h]
  simp only [build, henter]

/-- of the settings only the strictness matters once the context is built -/
theorem Context.resolve_congr {settings settings' : Settings}
    (h : settings.strictDependencies = settings'.strictDependencies) (catalog : Catalog) (context : Context) :
    context.resolve settings catalog = context.resolve settings' catalog := by
  simp only [resolve, validate, DependencyGraph.build_congr h]

theorem Inquiry.Same.answer_eq {p q : Inquiry} (h : p.Same q) : p.answer = q.answer := by
  rw [answer, answer, h.context, h.catalog]
  exact Context.resolve_congr h.strictDependencies _ _

end MixinPlanner
