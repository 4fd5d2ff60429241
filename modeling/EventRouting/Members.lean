/-!
# Members

Named values in order, each name once at most when built by the operations here.

* `Members.get?`     the value under a name
* `Members.set`      a new value under a name; a name that is there keeps its place
* `Members.erase`    without a name
* `Members.without`  without several names
* `Members.names`    the names in order
* `Members.ofList`   later values win, first places stay
* `Members.update`   the members of a second list set one after the other
-/

namespace EventRouting

/-- Named values in order. -/
abbrev Members (α : Type) := List (String × α)

namespace Members

variable {α : Type}

def get? : Members α → String → Option α
  | [], _ => none
  | (k, v) :: rest, key => if k = key then some v else get? rest key

def contains (ms : Members α) (key : String) : Bool := (ms.get? key).isSome

def set : Members α → String → α → Members α
  | [], key, value => [(key, value)]
  | (k, v) :: rest, key, value =>
    if k = key then (key, value) :: rest else (k, v) :: set rest key value

def erase : Members α → String → Members α
  | [], _ => []
  | (k, v) :: rest, key => if k = key then rest else (k, v) :: erase rest key

def without (ms : Members α) (keys : List String) : Members α :=
  ms.filter fun m => !keys.contains m.1

def names (ms : Members α) : List String := ms.map (·.1)

def update (ms new : Members α) : Members α := new.foldl (fun acc m => set acc m.1 m.2) ms

def ofList (pairs : List (String × α)) : Members α := update [] pairs

/-- Each name occurs once. -/
def Distinct (ms : Members α) : Prop := ms.names.Nodup

/-! ## one lemma per operation -/

@[simp] theorem get?_nil (key : String) : get? ([] : Members α) key = none := rfl

theorem get?_cons (k : String) (v : α) (ms : Members α) (key : String) :
    get? ((k, v) :: ms) key = if k = key then some v else get? ms key := rfl

@[simp] theorem get?_cons_self (k : String) (v : α) (ms : Members α) :
    get? ((k, v) :: ms) k = some v := by simp [get?]

theorem get?_cons_ne {k key : String} (v : α) (ms : Members α) (h : k ≠ key) :
    get? ((k, v) :: ms) key = get? ms key := by simp [get?, h]

@[simp] theorem names_nil : names ([] : Members α) = [] := rfl

@[simp] theorem names_cons (m : String × α) (ms : Members α) :
    names (m :: ms) = m.1 :: names ms := rfl

theorem get?_append (ms new : Members α) (key : String) :
    get? (ms ++ new) key = (get? ms key).or (get? new key) := by
  induction ms with
  | nil => rfl
  | cons m ms ih =>
    obtain ⟨k, v⟩ := m
    by_cases h : k = key
    · subst h
      rw [List.cons_append, get?_cons_self, get?_cons_self, Option.some_or]
    · rw [List.cons_append, get?_cons_ne v _ h, get?_cons_ne v _ h, ih]

theorem get?_set (ms : Members α) (key other : String) (value : α) :
    get? (set ms key value) other = if key = other then some value else get? ms other := by
  induction ms with
  | nil => simp [set, get?]
  | cons m ms ih =>
    obtain ⟨k, v⟩ := m
    by_cases hk : k = key
    · subst hk
      by_cases h : k = other <;> simp [set, get?, h]
    · by_cases h : k = other
      · subst h
        simp [set, get?, hk, Ne.symm hk]
      · simp [set, get?, hk, h, ih]

theorem names_set_of_mem (ms : Members α) (key : String) (value : α) (h : key ∈ ms.names) :
    (set ms key value).names = ms.names := by
  induction ms with
  | nil => simp at h
  | cons m ms ih =>
    obtain ⟨k, v⟩ := m
    by_cases hk : k = key
    · subst hk; simp [set]
    · have : key ∈ names ms := by
        rcases List.mem_cons.1 h with h | h
        · exact absurd h.symm hk
        · exact h
      simp [set, hk, ih this]

theorem names_set_of_not_mem (ms : Members α) (key : String) (value : α) (h : key ∉ ms.names) :
    (set ms key value).names = ms.names ++ [key] := by
  induction ms with
  | nil => simp [set]
  | cons m ms ih =>
    obtain ⟨k, v⟩ := m
    simp only [names_cons, List.mem_cons, not_or] at h
    simp [set, Ne.symm h.1, ih h.2]

theorem set_of_not_mem (ms : Members α) (key : String) (value : α) (h : key ∉ ms.names) :
    set ms key value = ms ++ [(key, value)] := by
  induction ms with
  | nil => rfl
  | cons m ms ih =>
    obtain ⟨k, v⟩ := m
    simp only [names_cons, List.mem_cons, not_or] at h
    rw [set, if_neg (Ne.symm h.1), ih h.2, List.cons_append]

/-- Members of new names go behind those that are there. -/
theorem update_of_distinct {ms new : Members α} (h : Distinct (ms ++ new)) : update ms new = ms ++ new := by
  induction new generalizing ms with
  | nil => rw [List.append_nil]; rfl
  | cons m new ih =>
    have hnew : m.1 ∉ ms.names := by
      intro hm
      have hnames : (ms.names ++ m.1 :: names new).Nodup := by
        rw [← names_cons, names, names, ← List.map_append]
        exact h
      exact (List.nodup_append.mp hnames).2.2 m.1 hm m.1 (List.mem_cons_self ..) rfl
    show update (set ms m.1 m.2) new = _
    rw [set_of_not_mem ms m.1 m.2 hnew, ih, List.append_assoc]
    · rfl
    · rw [List.append_assoc]
      exact h

theorem ofList_of_distinct {pairs : Members α} (h : Distinct pairs) : ofList pairs = pairs :=
  update_of_distinct h

theorem get?_eq_none_iff (ms : Members α) (key : String) : ms.get? key = none ↔ key ∉ ms.names := by
  induction ms with
  | nil => simp
  | cons m ms ih =>
    obtain ⟨k, v⟩ := m
    by_cases h : k = key
    · subst h; simp
    · simp [get?_cons_ne v ms h, ih, Ne.symm h]

theorem mem_of_get?_eq_some {ms : Members α} {key : String} {value : α}
    (h : ms.get? key = some value) : (key, value) ∈ ms := by
  induction ms with
  | nil => simp at h
  | cons m ms ih =>
    obtain ⟨k, v⟩ := m
    by_cases hk : k = key
    · subst hk; simp at h; simp [h]
    · rw [get?_cons_ne v ms hk] at h
      exact List.mem_cons_of_mem _ (ih h)

theorem mem_names_iff (ms : Members α) (key : String) : key ∈ ms.names ↔ ∃ value, ms.get? key = some value := by
  cases h : ms.get? key with
  | none => simp [(get?_eq_none_iff ms key).mp h]
  | some value => exact iff_of_true (List.mem_map_of_mem (mem_of_get?_eq_some h)) ⟨value, rfl⟩

theorem Distinct.get?_of_mem {ms : Members α} (h : ms.Distinct) {key : String} {value : α} (hm : (key, value) ∈ ms) :
    ms.get? key = some value := by
  induction ms with
  | nil => cases hm
  | cons m ms ih =>
    obtain ⟨k, v⟩ := m
    obtain ⟨hk, hd⟩ := List.nodup_cons.mp h
    rcases List.mem_cons.mp hm with he | hm
    · cases he
      exact get?_cons_self key value ms
    · have named : key ∈ names ms := List.mem_map_of_mem hm
      have hne : k ≠ key := fun he => hk (he ▸ named)
      rw [get?_cons_ne v ms hne, ih hd hm]

theorem get?_erase_ne (ms : Members α) {key other : String} (h : key ≠ other) :
    get? (erase ms key) other = get? ms other := by
  induction ms with
  | nil => rfl
  | cons m ms ih =>
    obtain ⟨k, v⟩ := m
    by_cases hk : k = key
    · subst hk
      simp [erase, get?, h]
    · by_cases ho : k = other
      · subst ho
        simp [erase, get?, hk]
      · simp [erase, get?, hk, ho, ih]

theorem mem_of_mem_set {ms : Members α} {key : String} {value : α} {m : String × α}
    (h : m ∈ set ms key value) : m = (key, value) ∨ m ∈ ms := by
  induction ms with
  | nil => exact .inl (List.mem_singleton.mp h)
  | cons n ms ih =>
    obtain ⟨k, v⟩ := n
    by_cases hk : k = key
    · rw [set, if_pos hk] at h
      exact (List.mem_cons.mp h).imp_right (List.mem_cons_of_mem _)
    · rw [set, if_neg hk] at h
      rcases List.mem_cons.mp h with rfl | h
      · exact .inr List.mem_cons_self
      · exact (ih h).imp_right (List.mem_cons_of_mem _)

theorem mem_of_mem_ofList {pairs : Members α} {m : String × α} (h : m ∈ ofList pairs) : m ∈ pairs := by
  suffices ∀ ms, m ∈ update ms pairs → m ∈ ms ∨ m ∈ pairs from (this [] h).resolve_left List.not_mem_nil
  clear h
  induction pairs with
  | nil => exact fun _ h => .inl h
  | cons p pairs ih =>
    intro ms h
    rcases ih _ h with h | h
    · rcases mem_of_mem_set h with rfl | h
      · exact .inr List.mem_cons_self
      · exact .inl h
    · exact .inr (List.mem_cons_of_mem _ h)

theorem erase_sublist (ms : Members α) (key : String) : (erase ms key).Sublist ms := by
  induction ms with
  | nil => exact List.Sublist.refl _
  | cons m ms ih =>
    obtain ⟨k, v⟩ := m
    by_cases hk : k = key
    · simp [erase, hk]
    · simp [erase, hk, ih]

theorem names_erase_sublist (ms : Members α) (key : String) : (erase ms key).names.Sublist ms.names :=
  (erase_sublist ms key).map _

theorem Distinct.set {ms : Members α} (h : ms.Distinct) (key : String) (value : α) :
    (ms.set key value).Distinct := by
  unfold Distinct at h ⊢
  by_cases hk : key ∈ ms.names
  · rw [names_set_of_mem ms key value hk]
    exact h
  · rw [names_set_of_not_mem ms key value hk, List.nodup_append]
    refine ⟨h, by simp, ?_⟩
    intro a ha b hb
    rw [List.mem_singleton] at hb
    subst hb
    exact fun he => hk (he ▸ ha)

theorem Distinct.erase {ms : Members α} (h : ms.Distinct) (key : String) : (ms.erase key).Distinct :=
  List.Sublist.nodup (names_erase_sublist ms key) h

theorem Distinct.get?_erase_self {ms : Members α} (h : ms.Distinct) (key : String) :
    get? (ms.erase key) key = none := by
  induction ms with
  | nil => rfl
  | cons m ms ih =>
    obtain ⟨k, v⟩ := m
    have hd := List.nodup_cons.mp h
    by_cases hk : k = key
    · subst hk
      rw [Members.erase, if_pos rfl]
      exact (get?_eq_none_iff ms k).mpr hd.1
    · rw [Members.erase, if_neg hk, get?_cons_ne v _ hk]
      exact ih hd.2

theorem Distinct.get?_erase_iff {ms : Members α} (h : ms.Distinct) (key other : String) (value : α) :
    get? (ms.erase key) other = some value ↔ get? ms other = some value ∧ other ≠ key := by
  by_cases hk : key = other
  · subst hk
    rw [h.get?_erase_self key]
    simp
  · rw [get?_erase_ne ms hk]
    simp [Ne.symm hk]

theorem get?_update (ms : Members α) {new : Members α} (h : new.Distinct) (key : String) :
    get? (update ms new) key = (get? new key).or (get? ms key) := by
  induction new generalizing ms with
  | nil => rfl
  | cons m new ih =>
    obtain ⟨k, v⟩ := m
    obtain ⟨hk, hd⟩ := List.nodup_cons.mp h
    have hn : get? (update ms ((k, v) :: new)) key = (get? new key).or (get? (set ms k v) key) := ih _ hd
    rw [hn, get?_set]
    by_cases he : k = key
    · subst he
      rw [(get?_eq_none_iff new k).mpr hk, if_pos rfl, get?_cons_self, Option.none_or, Option.some_or]
    · rw [if_neg he, get?_cons_ne v new he]

theorem Distinct.update {ms : Members α} (h : ms.Distinct) (new : Members α) :
    (Members.update ms new).Distinct := by
  induction new generalizing ms with
  | nil => exact h
  | cons m new ih => exact ih (h.set m.1 m.2)

theorem get?_eq_find? (ms : Members α) (key : String) :
    get? ms key = (ms.find? fun m => m.1 = key).map (·.2) := by
  induction ms with
  | nil => rfl
  | cons m ms ih =>
    obtain ⟨k, v⟩ := m
    by_cases h : k = key
    · subst h
      simp
    · rw [get?_cons_ne v ms h, ih, List.find?_cons_of_neg (by simp [h])]

/-- Where each name occurs once, its last value is its only one. -/
theorem Distinct.get?_reverse {ms : Members α} (h : ms.Distinct) (key : String) :
    get? ms.reverse key = get? ms key := by
  induction ms with
  | nil => rfl
  | cons m ms ih =>
    obtain ⟨k, v⟩ := m
    obtain ⟨hk, hd⟩ := List.nodup_cons.mp h
    rw [List.reverse_cons, get?_append, ih hd]
    by_cases he : k = key
    · subst he
      rw [(get?_eq_none_iff ms k).mpr hk, Option.none_or, get?_cons_self, get?_cons_self]
    · rw [get?_cons_ne v ms he, get?_cons_ne v [] he, get?_nil, Option.or_none]

theorem get?_filter (ms : Members α) (p : String → Bool) (key : String) :
    get? (ms.filter fun m => p m.1) key = if p key then get? ms key else none := by
  induction ms with
  | nil => simp
  | cons m ms ih =>
    obtain ⟨k, v⟩ := m
    rw [List.filter_cons, get?_cons]
    by_cases he : k = key
    · subst he
      cases hp : p k with
      | true => simp
      | false => simpa [hp] using ih
    · rw [if_neg he, ← ih]
      split
      · exact get?_cons_ne v _ he
      · rfl

variable {β : Type}

theorem names_map (ms : Members α) (f : α → β) : names (ms.map fun m => (m.1, f m.2)) = ms.names :=
  List.map_map

theorem get?_map (ms : Members α) (f : α → β) (key : String) :
    get? (ms.map fun m => (m.1, f m.2)) key = (ms.get? key).map f := by
  induction ms with
  | nil => rfl
  | cons m ms ih =>
    rw [List.map_cons, get?_cons, get?_cons, ih]
    split <;> rfl

theorem sizeOf_lt_of_get?_eq_some [SizeOf α] {ms : Members α} {key : String} {value : α}
    (h : ms.get? key = some value) : sizeOf value < sizeOf ms := by
  have := List.sizeOf_lt_of_mem (mem_of_get?_eq_some h)
  simp only [Prod.mk.sizeOf_spec] at this
  omega

end Members

end EventRouting
