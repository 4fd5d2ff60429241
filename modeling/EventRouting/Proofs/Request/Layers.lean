import EventRouting.Request.Options

/-!
# Layers of request options

What is left of layer upon layer, told from the entries of all layers in one row.

* `Headers.CaseDistinct`   no two names are the same in any case
* `Headers.last?`          the last entry of a name
* `Headers.LastAt`         the places of a row where a name is set for the last time
* `Headers.latest`         the entries that no later one of their name follows
* `Options.lastGiven`      the last value that is not null
* `Options.Sums`           what layers in a row come to
* `Options.compose_induct`   what one more layer keeps, for the layers of all extensions
* `Options.Sums.layer`, `Options.Sums.compose`   one more layer, and the layers of all extensions
* `Options.compose_lastWriter`   the last entry of a name wins
-/

namespace EventRouting

namespace Headers

/-! ## names in any case -/

theorem sameName_congr {a b : String} (h : sameName a b = true) (c : String) :
    sameName a c = sameName b c := by
  have hl : Text.lower a = Text.lower b := eq_of_beq h
  show (Text.lower a == Text.lower c) = (Text.lower b == Text.lower c)
  rw [hl]

/-- no two names are the same in any case -/
def CaseDistinct (hs : Members Json) : Prop := hs.Pairwise fun a b => sameName a.1 b.1 = false

instance (hs : Members Json) : Decidable (CaseDistinct hs) :=
  inferInstanceAs (Decidable (List.Pairwise _ hs))

/-- the last entry of a name in any case -/
def last? (entries : Members Json) (name : String) : Option (String × Json) :=
  entries.reverse.find? fun e => sameName e.1 name

/-- At the place `p` of a row its name is set for the last time. -/
def LastAt (entries : Members Json) (p : Nat) (e : String × Json) : Prop :=
  entries[p]? = some e ∧ ∀ q l, p < q → entries[q]? = some l → sameName e.1 l.1 = false

theorem last?_cons (e : String × Json) (rest : Members Json) (name : String) :
    last? (e :: rest) name = (last? rest name).or (if sameName e.1 name then some e else none) := by
  unfold last?
  rw [List.reverse_cons, List.find?_append, List.find?_singleton]

theorem last?_eq_none_iff (entries : Members Json) (name : String) :
    last? entries name = none ↔ ∀ e ∈ entries, sameName e.1 name = false := by
  unfold last?
  rw [List.find?_eq_none]
  simp

theorem LastAt.cons {rest : Members Json} {p : Nat} {e : String × Json} (h : LastAt rest p e)
    (d : String × Json) : LastAt (d :: rest) (p + 1) e := by
  refine ⟨h.1, fun q l hq hl => ?_⟩
  cases q with
  | zero => omega
  | succ q => exact h.2 q l (by omega) hl

theorem lastAt_zero {e : String × Json} {rest : Members Json}
    (h : ∀ l ∈ rest, sameName e.1 l.1 = false) : LastAt (e :: rest) 0 e := by
  refine ⟨rfl, fun q l hq hl => ?_⟩
  cases q with
  | zero => omega
  | succ q => exact h l (List.mem_of_getElem? hl)

/-! ## the latest entries -/

/-- the entries that no later one of their name follows -/
def latest : Members Json → Members Json
  | [] => []
  | e :: rest => if rest.any fun l => sameName e.1 l.1 then latest rest else e :: latest rest

theorem named_or (e : String × Json) (rest : Members Json) :
    (∃ l ∈ rest, sameName e.1 l.1 = true) ∨ ∀ l ∈ rest, sameName e.1 l.1 = false := by
  cases h : rest.any fun l => sameName e.1 l.1 with
  | true => exact .inl (List.any_eq_true.mp h)
  | false => exact .inr fun l hl => Bool.eq_false_iff.mpr (List.any_eq_false.mp h l hl)

theorem latest_cons_named {e l : String × Json} {rest : Members Json} (hl : l ∈ rest)
    (hs : sameName e.1 l.1 = true) : latest (e :: rest) = latest rest := by
  have hany : (rest.any fun l => sameName e.1 l.1) = true := List.any_eq_true.mpr ⟨l, hl, hs⟩
  rw [latest, if_pos hany]

theorem latest_cons_unnamed {e : String × Json} {rest : Members Json}
    (h : ∀ l ∈ rest, sameName e.1 l.1 = false) : latest (e :: rest) = e :: latest rest := by
  have hany : (rest.any fun l => sameName e.1 l.1) = false :=
    List.any_eq_false.mpr fun l hl => Bool.eq_false_iff.mp (h l hl)
  rw [latest, hany, if_neg Bool.false_ne_true]

theorem mem_of_mem_latest {entries : Members Json} {e : String × Json} (h : e ∈ latest entries) :
    e ∈ entries := by
  induction entries with
  | nil => exact h
  | cons d rest ih =>
    rcases named_or d rest with ⟨l, hl, hs⟩ | hno
    · rw [latest_cons_named hl hs] at h
      exact List.mem_cons_of_mem _ (ih h)
    · rw [latest_cons_unnamed hno] at h
      rcases List.mem_cons.mp h with rfl | h
      · exact List.mem_cons_self ..
      · exact List.mem_cons_of_mem _ (ih h)

theorem latest_caseDistinct (entries : Members Json) : CaseDistinct (latest entries) := by
  induction entries with
  | nil => exact List.Pairwise.nil
  | cons e rest ih =>
    rcases named_or e rest with ⟨l, hl, hs⟩ | hno
    · rw [latest_cons_named hl hs]
      exact ih
    · rw [latest_cons_unnamed hno]
      exact List.Pairwise.cons (fun l hl => hno l (mem_of_mem_latest hl)) ih

theorem latest_eq_self {entries : Members Json} (h : CaseDistinct entries) : latest entries = entries := by
  induction entries with
  | nil => rfl
  | cons e rest ih =>
    obtain ⟨he, hrest⟩ := List.pairwise_cons.mp h
    rw [latest_cons_unnamed he, ih hrest]

/-- One more entry takes the place of those of its name, behind all others. -/
theorem latest_concat (entries : Members Json) (e : String × Json) :
    latest (entries ++ [e]) = put (latest entries) e.1 e.2 := by
  induction entries with
  | nil => rfl
  | cons d rest ih =>
    rw [List.cons_append]
    rcases named_or d rest with ⟨l, hl, hs⟩ | hno
    · rw [latest_cons_named (List.mem_append_left _ hl) hs, latest_cons_named hl hs, ih]
    · rw [latest_cons_unnamed hno]
      unfold put
      cases hs : sameName d.1 e.1 with
      | true =>
        have he : e ∈ rest ++ [e] := List.mem_append_right _ (List.mem_singleton.mpr rfl)
        rw [latest_cons_named he hs, ih, List.filter_cons_of_neg (by simp [hs])]
        rfl
      | false =>
        have hnone : ∀ l ∈ rest ++ [e], sameName d.1 l.1 = false := by
          intro l hl
          rcases List.mem_append.mp hl with hl | hl
          · exact hno l hl
          · rw [List.mem_singleton.mp hl]
            exact hs
        rw [latest_cons_unnamed hnone, ih, List.filter_cons_of_pos (by simp [hs])]
        rfl

theorem filter_latest (entries : Members Json) (name : String) :
    (latest entries).filter (fun e => sameName e.1 name) = (last? entries name).toList := by
  induction entries with
  | nil => rfl
  | cons e rest ih =>
    rw [last?_cons]
    cases hname : sameName e.1 name with
    | false =>
      rw [if_neg Bool.false_ne_true, Option.or_none, ← ih]
      rcases named_or e rest with ⟨l, hl, hs⟩ | hno
      · rw [latest_cons_named hl hs]
      · rw [latest_cons_unnamed hno, List.filter_cons_of_neg (by simp [hname])]
    | true =>
      -- the entries of the name are those of the name of `e`
      have hcongr : ∀ l : String × Json, sameName l.1 name = sameName e.1 l.1 := by
        intro l
        rw [sameName_comm, ← sameName_congr hname l.1]
      rw [if_pos rfl]
      rcases named_or e rest with ⟨l, hl, hs⟩ | hno
      · rw [latest_cons_named hl hs, ih]
        cases hlast : last? rest name with
        | some d => rfl
        | none =>
          have hl' := (last?_eq_none_iff rest name).mp hlast l hl
          rw [hcongr, hs] at hl'
          cases hl'
      · have hnone : last? rest name = none := by
          refine (last?_eq_none_iff rest name).mpr fun l hl => ?_
          rw [hcongr]
          exact hno l hl
        rw [latest_cons_unnamed hno, List.filter_cons_of_pos (by simp [hname]), ih, hnone]
        rfl

theorem lastAt_of_mem_latest {entries : Members Json} {e : String × Json} (h : e ∈ latest entries) :
    ∃ p, LastAt entries p e := by
  induction entries with
  | nil => cases h
  | cons d rest ih =>
    rcases named_or d rest with ⟨l, hl, hs⟩ | hno
    · rw [latest_cons_named hl hs] at h
      obtain ⟨p, hp⟩ := ih h
      exact ⟨p + 1, hp.cons d⟩
    · rw [latest_cons_unnamed hno] at h
      rcases List.mem_cons.mp h with rfl | h
      · exact ⟨0, lastAt_zero hno⟩
      · obtain ⟨p, hp⟩ := ih h
        exact ⟨p + 1, hp.cons d⟩

theorem latest_ordered (entries : Members Json) :
    (latest entries).Pairwise fun a b => ∃ p q, p < q ∧ LastAt entries p a ∧ LastAt entries q b := by
  induction entries with
  | nil => exact List.Pairwise.nil
  | cons e rest ih =>
    have hrest : (latest rest).Pairwise fun a b =>
        ∃ p q, p < q ∧ LastAt (e :: rest) p a ∧ LastAt (e :: rest) q b := by
      refine ih.imp ?_
      rintro a b ⟨p, q, hpq, ha, hb⟩
      exact ⟨p + 1, q + 1, by omega, ha.cons e, hb.cons e⟩
    rcases named_or e rest with ⟨l, hl, hs⟩ | hno
    · rw [latest_cons_named hl hs]
      exact hrest
    · rw [latest_cons_unnamed hno]
      refine List.Pairwise.cons (fun b hb => ?_) hrest
      obtain ⟨q, hq⟩ := lastAt_of_mem_latest hb
      exact ⟨0, q + 1, by omega, lastAt_zero hno, hq.cons e⟩

/-! ## layers of entries -/

/-- The entries of a second layer set one after the other go behind those of the first in the row. -/
theorem foldl_put_latest (below above : Members Json) :
    above.foldl (fun acc h => put acc h.1 h.2) (latest below) = latest (below ++ above) := by
  induction above generalizing below with
  | nil => rw [List.append_nil, List.foldl_nil]
  | cons e rest ih =>
    rw [List.foldl_cons, ← latest_concat, ih, List.append_assoc]
    rfl

theorem present_present (hs : Members Json) : present (present hs) = present hs := by
  unfold present
  rw [List.filter_filter]
  simp only [Bool.and_self]

/-- What is null below may be dropped before or after an entry is put on top. -/
theorem present_put (hs : Members Json) (name : String) (value : Json) :
    present (put (present hs) name value) = present (put hs name value) := by
  unfold present put
  rw [List.filter_append, List.filter_append, List.filter_filter, List.filter_filter, List.filter_filter]
  congr 2
  funext h
  cases (h.2 != Json.null) <;> simp

theorem present_foldl_put (above below : Members Json) :
    present (above.foldl (fun acc h => put acc h.1 h.2) (present below))
      = present (above.foldl (fun acc h => put acc h.1 h.2) below) := by
  induction above generalizing below with
  | nil => exact present_present below
  | cons e rest ih =>
    rw [List.foldl_cons, List.foldl_cons, ← ih (put (present below) e.1 e.2), present_put, ih]

theorem layer_latest {below entries : Members Json} (h : present below = present (latest entries))
    (above : Members Json) : layer below above = present (latest (entries ++ above)) := by
  unfold layer
  rw [← present_foldl_put, h, present_foldl_put, foldl_put_latest]

theorem CaseDistinct.present {hs : Members Json} (h : CaseDistinct hs) : CaseDistinct (present hs) :=
  List.Pairwise.sublist List.filter_sublist h

theorem filter_present_latest (entries : Members Json) (name : String) :
    (present (latest entries)).filter (fun e => sameName e.1 name)
      = ((last? entries name).filter fun e => e.2 != .null).toList := by
  have hswap : (Headers.present (latest entries)).filter (fun e => sameName e.1 name)
      = Headers.present ((latest entries).filter fun e => sameName e.1 name) := by
    unfold Headers.present
    rw [List.filter_filter, List.filter_filter]
    exact congrArg (fun p => List.filter p (latest entries)) (funext fun e => Bool.and_comm ..)
  rw [hswap, filter_latest]
  unfold Headers.present
  rw [Option.toList_filter]

end Headers

namespace Options

/-- What holds of a base and is kept by one more layer holds of the layers of all extensions, none of which
fails. -/
theorem compose_induct {P : List Options → Options → Prop}
    (layer : ∀ {layers below}, P layers below → ∀ above, P (layers ++ [above]) (above.layeredOver below))
    {below : List Options} {base : Options} (h : P below base) (i : Invocation) {extensions : List Extension}
    {layers : List Options} (given : extensions.map (fun e => e i) = layers.map .ok) :
    ∃ o, compose base i extensions = .ok o ∧ P (below ++ layers) o := by
  induction extensions generalizing base below layers with
  | nil =>
    cases layers with
    | nil =>
      rw [List.append_nil]
      exact ⟨base, rfl, h⟩
    | cons l rest => cases given
  | cons e extensions ih =>
    cases layers with
    | nil => cases given
    | cons l rest =>
      obtain ⟨he, hrest⟩ := List.cons.inj given
      have he : e i = .ok l := he
      obtain ⟨o, ho, hp⟩ := ih (layer h l) hrest
      rw [List.append_assoc] at hp
      refine ⟨o, ?_, hp⟩
      rw [compose, he]
      exact ho

/-- the last value that is not null, or null -/
def lastGiven (values : List Json) : Json := (values.filter (· != .null)).getLastD .null

theorem lastGiven_concat (values : List Json) (v : Json) :
    lastGiven (values ++ [v]) = prefer (lastGiven values) v := by
  unfold lastGiven prefer
  rw [List.filter_append]
  by_cases h : v = .null
  · subst h
    rw [if_pos rfl]
    simp
  · rw [if_neg h, List.filter_cons_of_pos (by simp [h]), List.filter_nil, List.getLastD_concat]

theorem lastGiven_single (v : Json) : lastGiven [v] = v := by
  by_cases h : v = .null
  · subst h
    rfl
  · unfold lastGiven
    rw [List.filter_cons_of_pos (by simp [h])]
    rfl

/-- What layers come to, from first to last. -/
structure Sums (layers : List Options) (o : Options) : Prop where
  headers : Headers.present o.headers = Headers.present (Headers.latest (layers.flatMap (·.headers)))
  distinct : Headers.CaseDistinct o.headers
  baseUrl : o.baseUrl = lastGiven (layers.map (·.baseUrl))
  timeout : o.timeout = lastGiven (layers.map (·.timeout))
  followRedirects : o.followRedirects = lastGiven (layers.map (·.followRedirects))
  throwHttpErrors : o.throwHttpErrors = lastGiven (layers.map (·.throwHttpErrors))

theorem Sums.base {o : Options} (h : Headers.CaseDistinct o.headers) : Sums [o] o where
  headers := by
    have hrow : [o].flatMap (·.headers) = o.headers := List.append_nil _
    rw [hrow, Headers.latest_eq_self h]
  distinct := h
  baseUrl := (lastGiven_single _).symm
  timeout := (lastGiven_single _).symm
  followRedirects := (lastGiven_single _).symm
  throwHttpErrors := (lastGiven_single _).symm

theorem Sums.layer {layers : List Options} {below : Options} (h : Sums layers below) (above : Options) :
    Sums (layers ++ [above]) (above.layeredOver below) := by
  have hrow : (layers ++ [above]).flatMap (·.headers) = layers.flatMap (·.headers) ++ above.headers := by
    rw [List.flatMap_append]
    exact congrArg (_ ++ ·) (List.append_nil _)
  have hlayer := Headers.layer_latest h.headers above.headers
  have hmap : ∀ (option : Options → Json), option below = lastGiven (layers.map option) →
      prefer (option below) (option above) = lastGiven ((layers ++ [above]).map option) := by
    intro option hbelow
    rw [List.map_append, List.map_singleton, lastGiven_concat, hbelow]
  refine ⟨?_, ?_, hmap _ h.baseUrl, hmap _ h.timeout, hmap _ h.followRedirects, hmap _ h.throwHttpErrors⟩
  · show Headers.present (Headers.layer below.headers above.headers) = _
    rw [hrow, hlayer, Headers.present_present]
  · show Headers.CaseDistinct (Headers.layer below.headers above.headers)
    rw [hlayer]
    exact (Headers.latest_caseDistinct _).present

theorem Sums.compose {below : List Options} {base : Options} (h : Sums below base) (i : Invocation)
    {extensions : List Extension} {layers : List Options}
    (given : extensions.map (fun e => e i) = layers.map .ok) :
    ∃ o, Options.compose base i extensions = .ok o ∧ Sums (below ++ layers) o :=
  compose_induct Sums.layer h i given

/-- **The last writer wins.**  Where the names of the base differ in any case and no extension fails,
the options of all layers have no two headers of one name.  What is sent under a name is its last entry
in the row of all layers, as it is spelled there, unless it is null; headers are sent in the order in
which they were set last; and each other option is the last that is not null. -/
theorem compose_lastWriter (base : Options) (i : Invocation) (extensions : List Extension)
    (layers : List Options) (distinct : Headers.CaseDistinct base.headers)
    (given : extensions.map (fun e => e i) = layers.map .ok) :
    ∃ o, compose base i extensions = .ok o ∧ Headers.CaseDistinct o.headers ∧
      (∀ name, o.resolvedHeaders.filter (fun h => Headers.sameName h.1 name) =
        ((Headers.last? ((base :: layers).flatMap (·.headers)) name).filter (·.2 != .null)).toList) ∧
      (o.resolvedHeaders.Pairwise fun a b => ∃ p q, p < q ∧
        Headers.LastAt ((base :: layers).flatMap (·.headers)) p a ∧
        Headers.LastAt ((base :: layers).flatMap (·.headers)) q b) ∧
      o.baseUrl = lastGiven ((base :: layers).map (·.baseUrl)) ∧
      o.timeout = lastGiven ((base :: layers).map (·.timeout)) ∧
      o.followRedirects = lastGiven ((base :: layers).map (·.followRedirects)) ∧
      o.throwHttpErrors = lastGiven ((base :: layers).map (·.throwHttpErrors)) := by
  obtain ⟨o, ho, sums⟩ := (Sums.base distinct).compose i given
  have sent : o.resolvedHeaders
      = Headers.present (Headers.latest ((base :: layers).flatMap (·.headers))) := sums.headers
  refine ⟨o, ho, sums.distinct, fun name => ?_, ?_, sums.baseUrl, sums.timeout, sums.followRedirects,
    sums.throwHttpErrors⟩
  · rw [sent]
    exact Headers.filter_present_latest _ name
  · rw [sent]
    exact List.Pairwise.sublist List.filter_sublist (Headers.latest_ordered _)

/-- A base, a layer that sets one of its names in another case and turns two options off, and a layer
that takes a header away. -/
theorem compose_lastWriter_replacedAndRemoved :
    let base : Options := { empty with
      headers := [("Authorization", .str "a"), ("Accept", .str "x"), ("X-Trace", .str "1")]
      timeout := .int 5, followRedirects := .bool true }
    let first : Options := { empty with
      headers := [("authorization", .str "b"), ("X-TRACE", .str "2")], timeout := .int 0,
      followRedirects := .bool false }
    let second : Options := { empty with headers := [("accept", .null), ("AUTHORIZATION", .str "c")] }
    Headers.CaseDistinct base.headers ∧
      ∃ o, compose base default [fun _ => .ok first, fun _ => .ok second] = .ok o ∧
        o.resolvedHeaders.filter (fun h => Headers.sameName h.1 "authorization") =
          [("AUTHORIZATION", .str "c")] ∧
        o.resolvedHeaders.filter (fun h => Headers.sameName h.1 "Accept") = [] ∧
        o.timeout = .int 0 ∧ o.followRedirects = .bool false := by
  intro base first second
  have distinct : Headers.CaseDistinct base.headers := by decide +kernel
  obtain ⟨o, ho, _, sent, _, _, timeout, follow, _⟩ :=
    compose_lastWriter base default [fun _ => .ok first, fun _ => .ok second] [first, second] distinct rfl
  refine ⟨distinct, o, ho, ?_, ?_, ?_, ?_⟩
  · rw [sent]
    decide +kernel
  · rw [sent]
    decide +kernel
  · rw [timeout]
    decide +kernel
  · rw [follow]
    decide +kernel

end Options

end EventRouting
