import Mathlib.Data.List.Forall2
import Mathlib.Data.List.Perm.Subperm
import EventRouting.Json.Same
import EventRouting.Proofs.Json.Place
import EventRouting.Proofs.Number.Order

/-!
# Equal values

* `Json.EqualWith`        equality by value, with booleans apart from numbers or as the numbers one and zero
* `Json.HasNoNaN`         values in which every number stands somewhere
* `Json.sameWith_iff`     the checkers decide it
* `Json.Mixes`            two values have a boolean and a number at one place
* `Json.equal_iff_alike`  what is equal, told by what is alike
-/

namespace EventRouting

/-! ## lists and objects under relations -/

theorem forall₂_mono {α : Type} {r s : α → α → Prop} {xs ys : List α}
    (h : ∀ (i : Nat) v w, xs[i]? = some v → ys[i]? = some w → r v w → s v w) (related : List.Forall₂ r xs ys) :
    List.Forall₂ s xs ys := by
  rw [List.forall₂_iff_get] at related ⊢
  obtain ⟨size, each⟩ := related
  refine ⟨size, fun i hx hy => ?_⟩
  apply h i _ _ _ _ (each i hx hy)
  · exact List.getElem?_eq_getElem hx
  · exact List.getElem?_eq_getElem hy

theorem rel_mono {α : Type} {r s : α → α → Prop} {x y : Option α}
    (h : ∀ v w, x = some v → y = some w → r v w → s v w) (related : Option.Rel r x y) : Option.Rel s x y := by
  cases related with
  | some hr => exact .some (h _ _ rfl rfl hr)
  | none => exact .none

namespace Members

variable {α : Type} {ms ns : Members α} {r : α → α → Prop}

/-- Objects of the same size, the second of which has all that the first one has, are related under every name. -/
theorem rel_iff (hm : ms.Distinct) (hn : ns.Distinct) :
    (ms.length = ns.length ∧ ∀ m ∈ ms, ∃ w, ns.get? m.1 = some w ∧ r m.2 w) ↔
      ∀ key, Option.Rel r (ms.get? key) (ns.get? key) := by
  constructor
  · rintro ⟨size, each⟩ key
    cases hk : ms.get? key with
    | some v =>
      obtain ⟨w, hw, hr⟩ := each _ (mem_of_get?_eq_some hk)
      rw [hw]
      exact .some hr
    | none =>
      have sub : ms.names ⊆ ns.names := by
        intro k hk
        obtain ⟨m, hmem, rfl⟩ := List.mem_map.mp hk
        obtain ⟨w, hw, -⟩ := each m hmem
        exact (mem_names_iff ns _).mpr ⟨w, hw⟩
      have small : ns.names.length ≤ ms.names.length := by
        rw [names, names, List.length_map, List.length_map, size]
      have perm : ms.names.Perm ns.names := (List.subperm_of_subset hm sub).perm_of_length_le small
      have absent : key ∉ ns.names := fun h => (get?_eq_none_iff ms key).mp hk (perm.mem_iff.mpr h)
      rw [(get?_eq_none_iff ns key).mpr absent]
      exact .none
  · intro rel
    have same_names : ∀ key, key ∈ ms.names ↔ key ∈ ns.names := by
      intro key
      have h := rel key
      rw [← not_iff_not, ← get?_eq_none_iff, ← get?_eq_none_iff]
      generalize ms.get? key = a, ns.get? key = b at h
      cases h <;> simp
    have perm : ms.names.Perm ns.names := (List.perm_ext_iff_of_nodup hm hn).mpr same_names
    have size := perm.length_eq
    rw [names, names, List.length_map, List.length_map] at size
    refine ⟨size, fun m hmem => ?_⟩
    have h := rel m.1
    rw [hm.get?_of_mem hmem] at h
    cases hw : ns.get? m.1 with
    | none =>
      rw [hw] at h
      cases h
    | some w =>
      rw [hw] at h
      cases h with
      | some hr => exact ⟨w, rfl, hr⟩

end Members

namespace Json

/-- Equality by value.  Numbers are equal where their exact values are, and objects where they have equal values
under every name.  With `mixed`, booleans are also equal to the numbers one and zero. -/
inductive EqualWith (mixed : Bool) : Json → Json → Prop where
  | null : EqualWith mixed .null .null
  | bool (b : Bool) : EqualWith mixed (.bool b) (.bool b)
  | num {m n : Number} (value : m.position = n.position) : EqualWith mixed (.num m) (.num n)
  | str (s : String) : EqualWith mixed (.str s) (.str s)
  | arr {xs ys : List Json} (items : List.Forall₂ (EqualWith mixed) xs ys) : EqualWith mixed (.arr xs) (.arr ys)
  | obj {ms ns : Members Json}
      (members : ∀ key, Option.Rel (EqualWith mixed) (Members.get? ms key) (Members.get? ns key)) :
      EqualWith mixed (.obj ms) (.obj ns)
  | boolNum {b : Bool} {n : Number} (loose : mixed = true) (value : n.position = (boolNumber b).position) :
      EqualWith mixed (.bool b) (.num n)
  | numBool {b : Bool} {n : Number} (loose : mixed = true) (value : n.position = (boolNumber b).position) :
      EqualWith mixed (.num n) (.bool b)

/-- The same JSON value. -/
def Equal (a b : Json) : Prop := EqualWith false a b

/-- The same JSON value but for booleans, which are the numbers one and zero too. -/
def Alike (a b : Json) : Prop := EqualWith true a b

/-- No number in the value is a NaN. -/
def HasNoNaN (v : Json) : Prop := ∀ path n, Place v path (.num n) → n.isNaN = false

/-- At some place one value has a boolean and the other one a number. -/
def Mixes (a b : Json) : Prop :=
  ∃ path t n, (Place a path (.bool t) ∧ Place b path (.num n)) ∨ (Place a path (.num n) ∧ Place b path (.bool t))

/-! ## parts -/

theorem hasNoNaN_num_iff (n : Number) : HasNoNaN (.num n) ↔ n.isNaN = false := by
  constructor
  · intro h
    exact h [] n (.here _)
  · rintro h _ _ ⟨⟩
    exact h

theorem hasNoNaN_arr_iff (items : List Json) : HasNoNaN (.arr items) ↔ ∀ v ∈ items, v.HasNoNaN := by
  constructor
  · intro h v hv path n place
    obtain ⟨i, hi⟩ := List.mem_iff_getElem?.mp hv
    exact h (.index i :: path) n (.item hi place)
  · intro h path n place
    cases place with
    | item hi rest => exact h _ (List.mem_of_getElem? hi) _ n rest

theorem hasNoNaN_obj_iff (members : Members Json) : HasNoNaN (.obj members) ↔ ∀ m ∈ members, m.2.HasNoNaN := by
  constructor
  · intro h m hm path n place
    exact h (.name m.1 :: path) n (.member hm place)
  · intro h path n place
    cases place with
    | member hm rest => exact h _ hm _ n rest

theorem Mixes.item {xs ys : List Json} {i : Nat} {v w : Json} (hv : xs[i]? = some v) (hw : ys[i]? = some w)
    (h : Mixes v w) : Mixes (.arr xs) (.arr ys) := by
  obtain ⟨path, t, n, h⟩ := h
  refine ⟨.index i :: path, t, n, ?_⟩
  exact h.imp (fun h => ⟨.item hv h.1, .item hw h.2⟩) (fun h => ⟨.item hv h.1, .item hw h.2⟩)

theorem Mixes.member {ms ns : Members Json} {key : String} {v w : Json} (hv : (key, v) ∈ ms) (hw : (key, w) ∈ ns)
    (h : Mixes v w) : Mixes (.obj ms) (.obj ns) := by
  obtain ⟨path, t, n, h⟩ := h
  refine ⟨.name key :: path, t, n, ?_⟩
  exact h.imp (fun h => ⟨.member hv h.1, .member hw h.2⟩) (fun h => ⟨.member hv h.1, .member hw h.2⟩)

/-! ## places of equal values -/

section
variable {mixed : Bool} {a b : Json}

theorem EqualWith.items {xs ys : List Json} (h : EqualWith mixed (.arr xs) (.arr ys)) :
    List.Forall₂ (EqualWith mixed) xs ys := by
  cases h with
  | arr items => exact items

theorem EqualWith.members {ms ns : Members Json} (h : EqualWith mixed (.obj ms) (.obj ns)) (key : String) :
    Option.Rel (EqualWith mixed) (Members.get? ms key) (Members.get? ns key) := by
  cases h with
  | obj members => exact members key

theorem EqualWith.place (h : EqualWith mixed a b) (wa : a.WellFormed) (wb : b.WellFormed) {path : Path} {v w : Json}
    (hv : Place a path v) (hw : Place b path w) : EqualWith mixed v w := by
  induction hv generalizing b with
  | here v =>
    cases hw
    exact h
  | @member ms key v _ path hm _ ih =>
    cases hw with
    | @member ns _ u _ _ hn rest =>
      have hk := h.members key
      have first : Members.get? ms key = some v := ((wellFormed_obj_iff ms).mp wa).1.get?_of_mem hm
      have second : Members.get? ns key = some u := ((wellFormed_obj_iff ns).mp wb).1.get?_of_mem hn
      rw [first, second] at hk
      cases hk with
      | some hk => exact ih hk (wa.get? first) (wb.get? second) rest
  | @item xs i v _ path hi _ ih =>
    cases hw with
    | @item ys _ u _ _ hj rest =>
      have hk : EqualWith mixed v u := by
        obtain ⟨hx, rfl⟩ := List.getElem?_eq_some_iff.mp hi
        obtain ⟨hy, rfl⟩ := List.getElem?_eq_some_iff.mp hj
        exact (List.forall₂_iff_get.mp h.items).2 i hx hy
      exact ih hk ((wellFormed_arr_iff xs).mp wa _ (List.mem_of_getElem? hi))
        ((wellFormed_arr_iff ys).mp wb _ (List.mem_of_getElem? hj)) rest

end

/-! ## the checkers -/

section
variable (mixed : Bool)

theorem sameItems_iff (xs ys : List Json) :
    sameItems mixed xs ys = true ↔ List.Forall₂ (fun v w => sameWith mixed v w = true) xs ys := by
  induction xs generalizing ys with
  | nil => cases ys <;> simp [sameItems]
  | cons v xs ih => cases ys <;> simp [sameItems, ih]

theorem sameMembers_iff (ms ns : Members Json) :
    sameMembers mixed ms ns = true ↔
      ∀ m ∈ ms, ∃ w, ns.get? m.1 = some w ∧ sameWith mixed m.2 w = true := by
  induction ms with
  | nil => simp [sameMembers]
  | cons m ms ih =>
    obtain ⟨k, v⟩ := m
    rw [sameMembers, Bool.and_eq_true, ih, List.forall_mem_cons]
    refine and_congr_left' ?_
    cases Members.get? ns k <;> simp

theorem sameWith_arr_iff {xs ys : List Json}
    (each : ∀ v ∈ xs, ∀ w ∈ ys, sameWith mixed v w = true ↔ EqualWith mixed v w) :
    sameWith mixed (.arr xs) (.arr ys) = true ↔ EqualWith mixed (.arr xs) (.arr ys) := by
  show sameItems mixed xs ys = true ↔ _
  rw [sameItems_iff]
  constructor
  · intro h
    apply EqualWith.arr
    exact forall₂_mono
      (fun i v w hv hw => (each v (List.mem_of_getElem? hv) w (List.mem_of_getElem? hw)).mp) h
  · intro h
    exact forall₂_mono
      (fun i v w hv hw => (each v (List.mem_of_getElem? hv) w (List.mem_of_getElem? hw)).mpr) h.items

theorem sameWith_obj_iff {ms ns : Members Json} (hm : ms.Distinct) (hn : ns.Distinct)
    (each : ∀ key v w, ms.get? key = some v → ns.get? key = some w →
      (sameWith mixed v w = true ↔ EqualWith mixed v w)) :
    sameWith mixed (.obj ms) (.obj ns) = true ↔ EqualWith mixed (.obj ms) (.obj ns) := by
  have related := Members.rel_iff (r := fun v w => sameWith mixed v w = true) hm hn
  show (ms.length == ns.length && sameMembers mixed ms ns) = true ↔ _
  rw [Bool.and_eq_true, beq_iff_eq, sameMembers_iff, related]
  constructor
  · intro h
    apply EqualWith.obj
    exact fun key => rel_mono (fun v w hv hw => (each key v w hv hw).mp) (h key)
  · intro h
    exact fun key => rel_mono (fun v w hv hw => (each key v w hv hw).mpr) (h.members key)

theorem sameWith_boolNum_iff {t : Bool} {n : Number} (hn : n.isNaN = false) :
    (sameWith mixed (.bool t) (.num n) = true ↔ EqualWith mixed (.bool t) (.num n)) ∧
      (sameWith mixed (.num n) (.bool t) = true ↔ EqualWith mixed (.num n) (.bool t)) := by
  have value : (mixed && n.same (boolNumber t)) = true ↔ mixed = true ∧ n.position = (boolNumber t).position := by
    rw [Bool.and_eq_true, Number.same_iff hn (show (boolNumber t).isNaN = false from rfl)]
  constructor
  · refine value.trans ⟨fun h => .boolNum h.1 h.2, fun h => ?_⟩
    cases h with
    | boolNum loose value => exact ⟨loose, value⟩
  · refine value.trans ⟨fun h => .numBool h.1 h.2, fun h => ?_⟩
    cases h with
    | numBool loose value => exact ⟨loose, value⟩

/-- **The checkers decide equality by value**, for values without doubled names and without a NaN. -/
theorem sameWith_iff {a b : Json} (wa : a.WellFormed) (wb : b.WellFormed) (na : a.HasNoNaN) (nb : b.HasNoNaN) :
    sameWith mixed a b = true ↔ EqualWith mixed a b := by
  -- a part of the first value is compared with one part of the second, so the hypothesis is about every `b`
  induction a using induct generalizing b with
  | null =>
    cases b with
    | null => exact iff_of_true rfl .null
    | bool | num | str | arr | obj => exact iff_of_false Bool.false_ne_true nofun
  | bool t =>
    cases b with
    | bool u =>
      show (t == u) = true ↔ _
      rw [beq_iff_eq]
      constructor
      · rintro rfl
        exact .bool t
      · rintro ⟨⟩
        rfl
    | num n => exact (sameWith_boolNum_iff mixed ((hasNoNaN_num_iff n).mp nb)).1
    | null | str | arr | obj => exact iff_of_false Bool.false_ne_true nofun
  | num n =>
    cases b with
    | bool u => exact (sameWith_boolNum_iff mixed ((hasNoNaN_num_iff n).mp na)).2
    | num m =>
      show n.same m = true ↔ _
      rw [Number.same_iff ((hasNoNaN_num_iff n).mp na) ((hasNoNaN_num_iff m).mp nb)]
      constructor
      · exact .num
      · intro h
        cases h with
        | num value => exact value
    | null | str | arr | obj => exact iff_of_false Bool.false_ne_true nofun
  | str s =>
    cases b with
    | str u =>
      show (s == u) = true ↔ _
      rw [beq_iff_eq]
      constructor
      · rintro rfl
        exact .str s
      · rintro ⟨⟩
        rfl
    | null | bool | num | arr | obj => exact iff_of_false Bool.false_ne_true nofun
  | arr xs ih =>
    cases b with
    | arr ys =>
      apply sameWith_arr_iff
      intro v hv w hw
      have wv := (wellFormed_arr_iff xs).mp wa v hv
      have ww := (wellFormed_arr_iff ys).mp wb w hw
      exact ih v hv wv ww ((hasNoNaN_arr_iff xs).mp na v hv) ((hasNoNaN_arr_iff ys).mp nb w hw)
    | null | bool | num | str | obj => exact iff_of_false Bool.false_ne_true nofun
  | obj ms ih =>
    cases b with
    | obj ns =>
      apply sameWith_obj_iff mixed ((wellFormed_obj_iff ms).mp wa).1 ((wellFormed_obj_iff ns).mp wb).1
      intro key v w hv hw
      have hm := Members.mem_of_get?_eq_some hv
      have hn := Members.mem_of_get?_eq_some hw
      exact ih _ hm (wa.get? hv) (wb.get? hw) ((hasNoNaN_obj_iff ms).mp na _ hm) ((hasNoNaN_obj_iff ns).mp nb _ hn)
    | null | bool | num | str | arr => exact iff_of_false Bool.false_ne_true nofun

end

/-! ## booleans that stand for numbers -/

theorem Equal.alike {a b : Json} (h : Equal a b) : Alike a b := by
  induction a using induct generalizing b with
  | null => cases h; exact .null
  | bool t =>
    cases h with
    | bool => exact .bool t
    | boolNum loose => cases loose
  | num n =>
    cases h with
    | num value => exact .num value
    | numBool loose => cases loose
  | str s => cases h; exact .str s
  | arr xs ih =>
    cases h with
    | arr items => exact .arr (forall₂_mono (fun i v w hv _ hvw => ih v (List.mem_of_getElem? hv) hvw) items)
  | obj ms ih =>
    cases h with
    | obj members =>
      exact .obj fun key => rel_mono (fun v w hv _ hvw => ih _ (Members.mem_of_get?_eq_some hv) hvw) (members key)

theorem Alike.equal {a b : Json} (h : Alike a b) (apart : ¬ Mixes a b) : Equal a b := by
  induction a using induct generalizing b with
  | null => cases h; exact .null
  | bool t =>
    cases h with
    | bool => exact .bool t
    | @boolNum _ n => exact absurd ⟨[], t, n, .inl ⟨.here _, .here _⟩⟩ apart
  | num n =>
    cases h with
    | num value => exact .num value
    | @numBool t => exact absurd ⟨[], t, n, .inr ⟨.here _, .here _⟩⟩ apart
  | str s => cases h; exact .str s
  | arr xs ih =>
    cases h with
    | arr items =>
      refine .arr (forall₂_mono (fun i v w hv hw hvw => ?_) items)
      exact ih v (List.mem_of_getElem? hv) hvw fun mixes => apart (mixes.item hv hw)
  | obj ms ih =>
    cases h with
    | obj members =>
      refine .obj fun key => rel_mono (fun v w hv hw hvw => ?_) (members key)
      have hm := Members.mem_of_get?_eq_some hv
      have hn := Members.mem_of_get?_eq_some hw
      exact ih _ hm hvw fun mixes => apart (mixes.member hm hn)

/-- What is equal is alike, and nowhere a boolean stands for a number. -/
theorem equal_iff_alike {a b : Json} (wa : a.WellFormed) (wb : b.WellFormed) :
    Equal a b ↔ Alike a b ∧ ¬ Mixes a b := by
  constructor
  · intro h
    refine ⟨h.alike, ?_⟩
    rintro ⟨path, t, n, ⟨hv, hw⟩ | ⟨hv, hw⟩⟩
    · cases EqualWith.place h wa wb hv hw with
      | boolNum loose => cases loose
    · cases EqualWith.place h wa wb hv hw with
      | numBool loose => cases loose
  · rintro ⟨h, apart⟩
    exact h.equal apart

end Json

end EventRouting
