import EventRouting.Proofs.Context.Buffer
import EventRouting.Proofs.Number.Range

/-!
# The summary

The summary gathers all metrics in one pass over the points; each query goes through the points for one metric.

* `Tally.Holds`               a tally holds what the queries find in points
* `Tally.Holds.addAll`        it does so after any points
* `Stats.distribution_eq`     number, mean and maximum of integers, or a mean out of range
* `Stats.Summarizes`          a summary says what the queries say
* `Stats.summary_integers`    the summary of points that are integers
* `Stats.summary_run`         the summary after any operations on integers
-/

namespace EventRouting

/-! ## integers -/

def Json.integer (v : Json) : Int :=
  match v.numeric? with
  | some (.int i) => i
  | _ => 0

def Json.IsInteger (v : Json) : Prop := v.numeric? = some (.int v.integer)

instance (v : Json) : Decidable v.IsInteger := inferInstanceAs (Decidable (_ = _))

namespace Stats

def total (values : List Json) : Int := (values.map Json.integer).sum

theorem plus_integer (t : Int) {v : Json} (h : v.IsInteger) : plus (.int t) v = .ok (.int (t + v.integer)) := by
  unfold plus
  rw [h]
  rfl

theorem sum_integers {values : List Json} (h : ∀ v ∈ values, v.IsInteger) : sum values = .ok (.int (total values)) := by
  have from_ (t : Int) : values.foldlM plus (.int t) = .ok (.int (t + total values)) := by
    induction values generalizing t with
    | nil => rw [total, List.map_nil, List.sum_nil, Int.add_zero]; rfl
    | cons v values ih =>
      rw [List.foldlM_cons, plus_integer t (h v List.mem_cons_self)]
      show values.foldlM plus (.int (t + v.integer)) = _
      rw [ih (fun w hw => h w (List.mem_cons_of_mem _ hw)), total, total, List.map_cons, List.sum_cons, Int.add_assoc]
  rw [sum, from_, Int.zero_add]

theorem total_concat (values : List Json) (v : Json) : total (values ++ [v]) = total values + v.integer := by
  unfold total
  rw [List.map_append, List.sum_append, List.map_singleton, List.sum_singleton]

/-! ## maxima -/

theorem greater_integers {a b : Json} (ha : a.IsInteger) (hb : b.IsInteger) :
    (greater a b = a ∧ b.integer ≤ a.integer) ∨ (greater a b = b ∧ a.integer ≤ b.integer) := by
  unfold greater
  rw [ha, hb]
  simp only [Number.lt_int, decide_eq_true_eq]
  split
  · next less => exact .inr ⟨rfl, less.le⟩
  · next less => exact .inl ⟨rfl, not_lt.mp less⟩

theorem foldl_greater {first : Json} {rest : List Json} (hf : first.IsInteger) (hr : ∀ v ∈ rest, v.IsInteger) :
    rest.foldl greater first ∈ first :: rest ∧
      ∀ v ∈ first :: rest, v.integer ≤ (rest.foldl greater first).integer := by
  induction rest generalizing first with
  | nil =>
    refine ⟨List.mem_cons_self, fun v hv => ?_⟩
    rw [List.mem_singleton.mp hv]
    exact Int.le_refl _
  | cons w rest ih =>
    have hw : w.IsInteger := hr w List.mem_cons_self
    have hr : ∀ v ∈ rest, v.IsInteger := fun v hv => hr v (List.mem_cons_of_mem _ hv)
    rw [List.foldl_cons]
    rcases greater_integers hf hw with ⟨won, bound⟩ | ⟨won, bound⟩
    · obtain ⟨found, greatest⟩ := ih hf hr
      have above := greatest first List.mem_cons_self
      rw [won]
      refine ⟨?_, ?_⟩
      · rcases List.mem_cons.mp found with he | hm
        · rw [he]
          exact List.mem_cons_self
        · exact List.mem_cons_of_mem _ (List.mem_cons_of_mem _ hm)
      · rw [List.forall_mem_cons, List.forall_mem_cons]
        exact ⟨above, bound.trans above, fun v hv => greatest v (List.mem_cons_of_mem _ hv)⟩
    · obtain ⟨found, greatest⟩ := ih hw hr
      rw [won]
      exact ⟨List.mem_cons_of_mem _ found,
        List.forall_mem_cons.mpr ⟨bound.trans (greatest w List.mem_cons_self), greatest⟩⟩

theorem maximum_integers {values : List Json} (ne : values ≠ []) (h : ∀ v ∈ values, v.IsInteger) :
    maximum values ∈ values ∧ ∀ v ∈ values, v.integer ≤ (maximum values).integer := by
  obtain ⟨first, rest, rfl⟩ := List.exists_cons_of_ne_nil ne
  exact foldl_greater (h first List.mem_cons_self) fun v hv => h v (List.mem_cons_of_mem _ hv)

/-! ## distributions -/

/-- A mean has a place among binary64 numbers up to the end of their range. -/
def MeanInRange (values : List Json) : Prop := (total values).natAbs < Binary64.rangeEnd * values.length

instance (values : List Json) : Decidable (MeanInRange values) := inferInstanceAs (Decidable (_ < _))

theorem meanInRange_of_lt {values : List Json} (ne : 0 < values.length) (h : (total values).natAbs < 2 ^ 54 - 1) :
    MeanInRange values :=
  (h.trans_le Binary64.le_rangeEnd).trans_le (Nat.le_mul_of_pos_right _ ne)

/-- Number, mean and maximum of integers. -/
def described (values : List Json) : Json :=
  .obj [("count", .int values.length), ("avg", .num ((Number.int (total values)).divNat values.length)),
    ("max", maximum values)]

/-- What is answered instead of a mean that is out of range. -/
def meanTooLarge : Fault := .mishap .overflow (some "integer division result too large for a float")

theorem distribution_eq {values : List Json} (ne : values ≠ []) (h : ∀ v ∈ values, v.IsInteger) :
    distribution values = if MeanInRange values then .ok (described values) else .error meanTooLarge := by
  have length : 0 < values.length := List.length_pos_of_ne_nil ne
  have mean : quotient (.int (total values)) values.length =
      if MeanInRange values then .ok ((Number.int (total values)).divNat values.length) else .error meanTooLarge := by
    unfold quotient
    rw [if_neg length.ne']
    dsimp only
    refine if_congr ?_ rfl rfl
    exact Binary64.isFinite_ofRatio_iff _ _ length
  unfold distribution
  rw [sum_integers h]
  show (quotient (.int (total values)) values.length >>= fun _ => _) = _
  rw [mean]
  split <;> rfl

theorem distributions_ok {metrics : Members (List Json)}
    (h : ∀ m ∈ metrics, distribution m.2 = .ok (described m.2)) :
    distributions metrics = .ok (metrics.map fun m => (m.1, described m.2)) := by
  induction metrics with
  | nil => rfl
  | cons m metrics ih =>
    unfold distributions
    rw [h m List.mem_cons_self, ih fun n hn => h n (List.mem_cons_of_mem _ hn)]
    rfl

theorem distributions_error {metrics : Members (List Json)} {f : Fault}
    (h : ∀ m ∈ metrics, distribution m.2 = .ok (described m.2) ∨ distribution m.2 = .error f)
    (fails : ∃ m ∈ metrics, distribution m.2 = .error f) : distributions metrics = .error f := by
  induction metrics with
  | nil =>
    obtain ⟨m, hm, -⟩ := fails
    cases hm
  | cons m metrics ih =>
    unfold distributions
    rcases h m List.mem_cons_self with given | missing
    · have later : ∃ n ∈ metrics, distribution n.2 = .error f := by
        obtain ⟨n, hn, hf⟩ := fails
        rcases List.mem_cons.mp hn with rfl | hn
        · cases given.symm.trans hf
        · exact ⟨n, hn, hf⟩
      rw [given, ih (fun n hn => h n (List.mem_cons_of_mem _ hn)) later]
      rfl
    · rw [missing]

end Stats

/-! ## tallies -/

namespace Tally

open Stats

/-- What a query of a kind and a metric finds among points. -/
def valuesIn (points : List Point) (kind : PointKind) (metric : String) : List Json :=
  (points.filter fun p => p.kind = kind && p.metric == metric).map (·.value)

/-- `t.Holds points`: a tally holds, for every metric, what a query for it finds in points. -/
structure Holds (t : Tally) (points : List Point) : Prop where
  counters_distinct : t.counters.Distinct
  histograms_distinct : t.histograms.Distinct
  counters (metric : String) : t.counters.get? metric =
    if valuesIn points .increment metric = [] then none else some (.int (total (valuesIn points .increment metric)))
  histograms (metric : String) : t.histograms.get? metric =
    if valuesIn points .histogram metric = [] then none else some (valuesIn points .histogram metric)

theorem valuesIn_concat (points : List Point) (p : Point) (kind : PointKind) (metric : String) :
    valuesIn (points ++ [p]) kind metric =
      if p.kind = kind ∧ p.metric = metric then valuesIn points kind metric ++ [p.value]
      else valuesIn points kind metric := by
  unfold valuesIn
  rw [List.filter_append, List.map_append]
  split
  · next same => simp [same]
  · next other =>
    have dropped : [p].filter (fun p => p.kind = kind && p.metric == metric) = [] := by simpa using other
    rw [dropped, List.map_nil, List.append_nil]

theorem empty_holds : empty.Holds [] where
  counters_distinct := List.nodup_nil
  histograms_distinct := List.nodup_nil
  counters _ := rfl
  histograms _ := rfl

variable {t : Tally} {points : List Point}

theorem Holds.counter_getD (h : t.Holds points) (metric : String) :
    (t.counters.get? metric).getD (.int 0) = .int (total (valuesIn points .increment metric)) := by
  rw [h.counters]
  split
  · next none => rw [none]; rfl
  · rfl

theorem Holds.histogram_getD (h : t.Holds points) (metric : String) :
    (t.histograms.get? metric).getD [] = valuesIn points .histogram metric := by
  rw [h.histograms]
  split
  · next none => rw [none]; rfl
  · rfl

theorem Holds.add (h : t.Holds points) {p : Point} (hp : p.value.IsInteger) :
    ∃ t', t.add p = .ok t' ∧ t'.Holds (points ++ [p]) := by
  obtain ⟨kind, metric, value, tags⟩ := p
  cases kind with
  | increment =>
    let sum : Number := .int (total (valuesIn points .increment metric) + value.integer)
    refine ⟨{ t with counters := t.counters.set metric sum }, ?_, h.counters_distinct.set _ _,
      h.histograms_distinct, fun other => ?_, fun other => ?_⟩
    · unfold Tally.add
      dsimp only
      rw [h.counter_getD, plus_integer _ hp]
      rfl
    · dsimp only
      rw [Members.get?_set, valuesIn_concat]
      by_cases same : metric = other
      · subst same
        simp [total_concat, sum]
      · simp [same, h.counters]
    · rw [valuesIn_concat]
      exact (h.histograms other).trans (by simp)
  | histogram =>
    let values : List Json := valuesIn points .histogram metric ++ [value]
    refine ⟨{ t with histograms := t.histograms.set metric values }, ?_, h.counters_distinct,
      h.histograms_distinct.set _ _, fun other => ?_, fun other => ?_⟩
    · unfold Tally.add
      dsimp only
      rw [h.histogram_getD]
    · rw [valuesIn_concat]
      exact (h.counters other).trans (by simp)
    · dsimp only
      rw [Members.get?_set, valuesIn_concat]
      by_cases same : metric = other
      · subst same
        simp [values]
      · simp [same, h.histograms]

theorem Holds.addAll (h : t.Holds points) {more : List Point} (integers : ∀ p ∈ more, p.value.IsInteger) :
    ∃ t', t.addAll more = .ok t' ∧ t'.Holds (points ++ more) := by
  induction more generalizing t points with
  | nil => exact ⟨t, rfl, by rwa [List.append_nil]⟩
  | cons p more ih =>
    obtain ⟨t₁, added, holds⟩ := h.add (integers p List.mem_cons_self)
    obtain ⟨t₂, rest, holds⟩ := ih holds fun q hq => integers q (List.mem_cons_of_mem _ hq)
    refine ⟨t₂, ?_, by rwa [List.append_assoc] at holds⟩
    unfold Tally.addAll
    rw [added]
    exact rest

theorem mem_valuesIn {points : List Point} {kind : PointKind} {metric : String} {v : Json} :
    v ∈ valuesIn points kind metric ↔ ∃ p ∈ points, p.kind = kind ∧ p.metric = metric ∧ p.value = v := by
  simp [valuesIn, and_assoc]

theorem valuesIn_ne_nil {points : List Point} {kind : PointKind} {metric : String} :
    valuesIn points kind metric ≠ [] ↔ ∃ p ∈ points, p.kind = kind ∧ p.metric = metric := by
  simp [valuesIn]

end Tally

/-! ## the summary -/

namespace Stats

/-- A summary says of each metric that has points what the queries for it say, and of no other. -/
structure Summarizes (s : Stats) (counters histograms : Members Json) : Prop where
  counters_distinct : counters.Distinct
  counters_names (metric : String) :
    metric ∈ counters.names ↔ ∃ p ∈ s.points, p.kind = .increment ∧ p.metric = metric
  counter {metric : String} {v : Json} :
    counters.get? metric = some v → ∃ n, s.count metric = .ok n ∧ v = .num n
  histograms_distinct : histograms.Distinct
  histograms_names (metric : String) :
    metric ∈ histograms.names ↔ ∃ p ∈ s.points, p.kind = .histogram ∧ p.metric = metric
  histogram {metric : String} {v : Json} :
    histograms.get? metric = some v → ∃ greatest ∈ s.values metric,
      (∀ w ∈ s.values metric, w.integer ≤ greatest.integer) ∧
      v = .obj [("count", .int (s.values metric).length),
        ("avg", .num ((Number.int (total (s.values metric))).divNat (s.values metric).length)), ("max", greatest)]

open Tally in
theorem summarizes_of_holds {s : Stats} (integers : ∀ p ∈ s.points, p.value.IsInteger) {t : Tally}
    (h : t.Holds s.points) :
    s.Summarizes (t.counters.map fun c => (c.1, .num c.2)) (t.histograms.map fun c => (c.1, described c.2)) where
  counters_distinct := by
    unfold Members.Distinct
    rw [Members.names_map]
    exact h.counters_distinct
  counters_names metric := by
    rw [Members.names_map, Members.mem_names_iff, h.counters, ← valuesIn_ne_nil]
    split
    · next none => simp [none]
    · next some => simp [some]
  counter {metric v} hv := by
    rw [Members.get?_map, h.counters] at hv
    split at hv
    · cases hv
    · cases hv
      refine ⟨_, sum_integers fun w hw => ?_, rfl⟩
      obtain ⟨p, hp, -, -, rfl⟩ := mem_valuesIn.mp hw
      exact integers p hp
  histograms_distinct := by
    unfold Members.Distinct
    rw [Members.names_map]
    exact h.histograms_distinct
  histograms_names metric := by
    rw [Members.names_map, Members.mem_names_iff, h.histograms, ← valuesIn_ne_nil]
    split
    · next none => simp [none]
    · next some => simp [some]
  histogram {metric v} hv := by
    rw [Members.get?_map, h.histograms] at hv
    split at hv
    · cases hv
    · next ne =>
      cases hv
      obtain ⟨found, greatest⟩ := maximum_integers ne fun w hw => by
        obtain ⟨p, hp, -, -, rfl⟩ := mem_valuesIn.mp hw
        exact integers p hp
      exact ⟨maximum (s.values metric), found, greatest, rfl⟩

/-- The summary is made of a tally that holds the points. -/
theorem exists_tally {s : Stats} (integers : ∀ p ∈ s.points, p.value.IsInteger) :
    ∃ t : Tally, t.Holds s.points ∧ s.summary = (distributions t.histograms).map fun histograms =>
      .obj [("counters", .obj (t.counters.map fun c => (c.1, .num c.2))), ("histograms", .obj histograms)] := by
  obtain ⟨t, gathered, holds⟩ := Tally.empty_holds.addAll integers
  refine ⟨t, holds, ?_⟩
  unfold Stats.summary
  rw [gathered]
  show (distributions t.histograms >>= fun _ => _) = _
  cases distributions t.histograms <;> rfl

section

variable {s : Stats} {t : Tally} (integers : ∀ p ∈ s.points, p.value.IsInteger) (h : t.Holds s.points)
  {metric : String} {values : List Json} (hm : (metric, values) ∈ t.histograms)

include h hm

theorem values_of_mem : (∃ p ∈ s.points, p.kind = .histogram ∧ p.metric = metric) ∧ values = s.values metric := by
  have found := h.histograms_distinct.get?_of_mem hm
  rw [h.histograms] at found
  split at found
  · cases found
  · next ne => exact ⟨Tally.valuesIn_ne_nil.mp ne, (Option.some.inj found).symm⟩

include integers

theorem distribution_of_mem :
    distribution values = if MeanInRange values then .ok (described values) else .error meanTooLarge := by
  obtain ⟨some, rfl⟩ := values_of_mem h hm
  refine distribution_eq (Tally.valuesIn_ne_nil.mpr some) fun v hv => ?_
  obtain ⟨p, hp, -, -, rfl⟩ := Tally.mem_valuesIn.mp hv
  exact integers p hp

end

/-- The summary of points that are integers: it is given unless some mean is out of range. -/
theorem summary_integers {s : Stats} (integers : ∀ p ∈ s.points, p.value.IsInteger) :
    ((∀ p ∈ s.points, p.kind = .histogram → MeanInRange (s.values p.metric)) → ∃ counters histograms,
      s.summary = .ok (.obj [("counters", .obj counters), ("histograms", .obj histograms)]) ∧
        s.Summarizes counters histograms) ∧
    ∀ p ∈ s.points, p.kind = .histogram → ¬ MeanInRange (s.values p.metric) →
      s.summary = .error meanTooLarge := by
  obtain ⟨t, holds, summary⟩ := exists_tally integers
  rw [summary]
  constructor
  · intro inRange
    have all : distributions t.histograms = .ok (t.histograms.map fun m => (m.1, described m.2)) :=
      distributions_ok fun m hm => by
        obtain ⟨⟨p, hp, kind, named⟩, values⟩ := values_of_mem holds hm
        rw [distribution_of_mem integers holds hm, if_pos]
        rw [values, ← named]
        exact inRange p hp kind
    refine ⟨_, _, ?_, summarizes_of_holds integers holds⟩
    rw [all]
    rfl
  · intro p hp kind outside
    have found : t.histograms.get? p.metric = some (s.values p.metric) :=
      (holds.histograms p.metric).trans (if_neg (Tally.valuesIn_ne_nil.mpr ⟨p, hp, kind, rfl⟩))
    have member := Members.mem_of_get?_eq_some found
    have missing : distributions t.histograms = .error meanTooLarge := by
      refine distributions_error (fun m hm => ?_)
        ⟨_, member, (distribution_of_mem integers holds member).trans (if_neg outside)⟩
      rw [distribution_of_mem integers holds hm]
      split
      · exact .inl rfl
      · exact .inr rfl
    rw [missing]
    rfl

/-- **The summary agrees with the queries.**  After any operations on integers, whatever has been dropped since,
the summary has the metrics with a count, each with the sum that is its count, and the metrics with a value, each
with the number of its values, their sum divided by that number, which is not zero, and the greatest of them.  It
is given unless some mean is out of the range of binary64. -/
theorem summary_run (limit : Int) (ops : List Op)
    (integers : ∀ op ∈ ops, ∀ p ∈ op.point?, p.value.IsInteger) :
    let s := (start limit).run ops
    ((∀ p ∈ s.points, p.kind = .histogram → MeanInRange (s.values p.metric)) → ∃ counters histograms,
      s.summary = .ok (.obj [("counters", .obj counters), ("histograms", .obj histograms)]) ∧
        s.Summarizes counters histograms) ∧
    ∀ p ∈ s.points, p.kind = .histogram → ¬ MeanInRange (s.values p.metric) →
      s.summary = .error meanTooLarge := by
  intro s
  refine summary_integers fun p hp => ?_
  obtain ⟨op, hop, recorded⟩ := (mem_points_run hp).resolve_left List.not_mem_nil
  exact integers op hop p recorded

/-- A value that no binary64 number is near has no mean. -/
theorem summary_run_outOfRange :
    let ops : List Op := [.histogram "size" (.int (10 ^ 400)) []]
    (∀ op ∈ ops, ∀ p ∈ op.point?, p.value.IsInteger) ∧
      ((start defaultLimit).run ops).values "size" = [.int (10 ^ 400)] ∧
      ((start defaultLimit).run ops).summary = .error meanTooLarge := by
  -- the integer is looked at only for its size
  have single (i : Int) (h : ¬ MeanInRange [.int i]) :
      let ops : List Op := [.histogram "size" (.int i) []]
      (∀ op ∈ ops, ∀ p ∈ op.point?, p.value.IsInteger) ∧ ((start defaultLimit).run ops).values "size" = [.int i] ∧
        ((start defaultLimit).run ops).summary = .error meanTooLarge := by
    have integers : ∀ op ∈ [Op.histogram "size" (.int i) []], ∀ p ∈ op.point?, p.value.IsInteger := by
      intro op hop p hp
      rw [List.mem_singleton.mp hop] at hp
      cases hp
      rfl
    have stored : ∀ p ∈ [Point.mk .histogram "size" (.int i) []], p.value.IsInteger := by
      intro p hp
      rw [List.mem_singleton.mp hp]
      rfl
    exact ⟨integers, rfl, (summary_integers stored).2 _ List.mem_cons_self rfl h⟩
  refine single (10 ^ 400) fun inRange => ?_
  have powers {m k : Nat} (h : m ≤ 3 * k) : 2 ^ m ≤ 10 ^ k := by
    refine (Nat.pow_le_pow_right (by decide) h).trans ?_
    rw [Nat.pow_mul]
    exact Nat.pow_le_pow_left (by decide) k
  have size (k : Nat) : (total [.int (10 ^ k)]).natAbs = 10 ^ k := by
    show (10 ^ k + 0 : Int).natAbs = 10 ^ k
    rw [Int.add_zero, Int.natAbs_pow]
    rfl
  unfold MeanInRange at inRange
  rw [size, List.length_singleton, Nat.mul_one] at inRange
  exact absurd (Binary64.rangeEnd_lt.trans_le (powers (by decide))) (Nat.lt_asymm inRange)

/-- A name of both kinds, and a count that has been dropped. -/
theorem summary_run_shared :
    let ops : List Op := [.increment "a" (.int 5) [], .histogram "a" (.int 3) [], .increment "a" (.int 2) [],
      .histogram "b" (.int 1) [], .increment "a" (.int 1) [], .histogram "a" (.int 8) []]
    let s := (start 5).run ops
    (∀ op ∈ ops, ∀ p ∈ op.point?, p.value.IsInteger) ∧
      (∀ p ∈ s.points, p.kind = .histogram → MeanInRange (s.values p.metric)) ∧
      ∃ counters histograms,
        s.summary = .ok (.obj [("counters", .obj counters), ("histograms", .obj histograms)]) ∧
          s.Summarizes counters histograms := by
  intro ops s
  have integers : ∀ op ∈ ops, ∀ p ∈ op.point?, p.value.IsInteger := by decide
  have small : ∀ p ∈ s.points, p.kind = .histogram →
      0 < (s.values p.metric).length ∧ (total (s.values p.metric)).natAbs < 2 ^ 54 - 1 := by decide
  have inRange : ∀ p ∈ s.points, p.kind = .histogram → MeanInRange (s.values p.metric) := fun p hp kind =>
    meanInRange_of_lt (small p hp kind).1 (small p hp kind).2
  exact ⟨integers, inRange, (summary_run 5 ops integers).1 inRange⟩

end Stats

end EventRouting
