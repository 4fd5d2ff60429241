import EventRouting.Context.Stats
import Mathlib.Data.List.DropRight

/-!
# The points that are kept

Statistics keep the latest points, as far as their limit is one.

* `Stats.Op`, `Stats.run`     what is asked of statistics, and the statistics after it
* `Stats.recorded`            the points since the last reset
* `Stats.points_add`          one more point, within the limit or beyond it
* `Stats.points_run`          the points after any operations
-/

namespace EventRouting.Stats

/-! ## operations -/

/-- One thing asked of statistics. -/
inductive Op where
  | increment (metric : String) (value : Json) (tags : List Json)
  | histogram (metric : String) (value : Json) (tags : List Json)
  | reset

def Op.point? : Op → Option Point
  | increment metric value tags => some ⟨.increment, metric, value, tags⟩
  | histogram metric value tags => some ⟨.histogram, metric, value, tags⟩
  | reset => none

def step (s : Stats) : Op → Stats
  | .increment metric value tags => s.increment metric value tags
  | .histogram metric value tags => s.histogram metric value tags
  | .reset => s.reset

def run (s : Stats) (ops : List Op) : Stats := ops.foldl step s

/-- The points since the last reset, in order. -/
def recorded (ops : List Op) : List Point := (ops.rtakeWhile fun op => op.point?.isSome).filterMap Op.point?

theorem recorded_record (ops : List Op) {op : Op} {p : Point} (h : op.point? = some p) :
    recorded (ops ++ [op]) = recorded ops ++ [p] := by
  have records : op.point?.isSome = true := by rw [h]; rfl
  unfold recorded
  rw [List.rtakeWhile_concat_pos (fun op : Op => op.point?.isSome) ops op records, List.filterMap_append]
  exact congrArg (_ ++ ·) (List.filterMap_cons_some h)

theorem recorded_reset (ops : List Op) : recorded (ops ++ [.reset]) = [] := by
  unfold recorded
  rw [List.rtakeWhile_concat_neg _ _ _ (by decide), List.filterMap_nil]

theorem run_concat (s : Stats) (ops : List Op) (op : Op) : s.run (ops ++ [op]) = (s.run ops).step op := by
  unfold run
  rw [List.foldl_append]
  rfl

theorem step_record (s : Stats) {op : Op} {p : Point} (h : op.point? = some p) : s.step op = s.add p := by
  cases op with
  | reset => cases h
  | increment | histogram =>
    cases h
    rfl

theorem limit_run (s : Stats) (ops : List Op) : (s.run ops).limit = s.limit := by
  induction ops using List.reverseRecOn with
  | nil => rfl
  | append_singleton ops op ih =>
    rw [run_concat]
    cases op <;> exact ih

/-! ## the limit -/

theorem mem_of_mem_latest {limit : Int} {l : List Point} {p : Point} (h : p ∈ latest limit l) : p ∈ l := by
  unfold latest at h
  split at h <;> exact List.mem_of_mem_drop h

theorem mem_points_run {s : Stats} {ops : List Op} {p : Point} (h : p ∈ (s.run ops).points) :
    p ∈ s.points ∨ ∃ op ∈ ops, p ∈ op.point? := by
  induction ops using List.reverseRecOn with
  | nil => exact .inl h
  | append_singleton ops op ih =>
    rw [run_concat] at h
    have before : p ∈ (s.run ops).points ∨ p ∈ op.point? := by
      cases hp : op.point? with
      | none =>
        cases op with
        | reset => cases h
        | increment | histogram => cases hp
      | some q =>
        rw [step_record _ hp] at h
        have last : p ∈ (s.run ops).points ++ [q] := by
          unfold Stats.add at h
          dsimp only at h
          split at h
          · exact mem_of_mem_latest h
          · exact h
        exact (List.mem_append.mp last).imp_right fun hq => by rw [List.mem_singleton.mp hq]; rfl
    rcases before with earlier | now
    · refine (ih earlier).imp_right ?_
      rintro ⟨op, hop, recorded⟩
      exact ⟨op, List.mem_append_left _ hop, recorded⟩
    · exact .inr ⟨op, List.mem_append_right _ List.mem_cons_self, now⟩

theorem latest_of_pos {limit : Nat} (h : 0 < limit) (l : List Point) : latest limit l = l.rtake limit := by
  unfold latest
  rw [if_neg (by omega), Int.toNat_natCast]
  rfl

/-- One more point behind those that are kept: a limit of zero lets all of them stay. -/
theorem points_add (s : Stats) (p : Point) {limit : Nat} (h : s.limit = limit) :
    (s.add p).points = if limit = 0 then s.points ++ [p] else (s.points ++ [p]).rtake limit := by
  show (if s.limit < ((s.points ++ [p]).length : Int) then latest s.limit (s.points ++ [p]) else s.points ++ [p]) = _
  rw [h]
  rcases Nat.eq_zero_or_pos limit with rfl | hpos
  · show (if _ then (s.points ++ [p]).drop 0 else _) = _
    rw [List.drop_zero, ite_self, if_pos rfl]
  · rw [if_neg (Nat.pos_iff_ne_zero.mp hpos), latest_of_pos hpos]
    split
    · rfl
    · next within =>
      have none : (s.points ++ [p]).length - limit = 0 := by omega
      rw [List.rtake, none, List.drop_zero]

theorem rtake_concat_rtake (l : List Point) (p : Point) (limit : Nat) :
    (l.rtake limit ++ [p]).rtake limit = (l ++ [p]).rtake limit := by
  cases limit with
  | zero => rw [List.rtake_zero, List.rtake_zero]
  | succ n =>
    have same : (l.rtake (n + 1)).rtake n = l.rtake n := by
      rw [List.rtake_eq_reverse_take_reverse, List.rtake_eq_reverse_take_reverse, List.reverse_reverse, List.take_take,
        min_eq_left (Nat.le_succ n), ← List.rtake_eq_reverse_take_reverse]
    rw [List.rtake_concat_succ, List.rtake_concat_succ, same]

/-- **The latest points.**  Whatever operations have led there, statistics that started empty with a positive
limit hold the last of the points recorded since the last reset, in order: as many as the limit says, or all
of them if they are fewer.  A limit of zero is none: every point since the last reset is kept. -/
theorem points_run (limit : Nat) (ops : List Op) :
    ((start limit).run ops).points =
        (if limit = 0 then recorded ops else (recorded ops).drop ((recorded ops).length - limit)) ∧
      ((start limit).run ops).points.length =
        if limit = 0 then (recorded ops).length else min limit (recorded ops).length := by
  have points : ((start limit).run ops).points = if limit = 0 then recorded ops else (recorded ops).rtake limit := by
    induction ops using List.reverseRecOn with
    | nil =>
      show [] = if limit = 0 then [] else List.rtake [] limit
      rw [List.rtake_nil, ite_self]
    | append_singleton ops op ih =>
      rw [run_concat]
      cases hp : op.point? with
      | none =>
        cases op with
        | reset =>
          rw [recorded_reset, List.rtake_nil, ite_self]
          rfl
        | increment | histogram => cases hp
      | some p =>
        rw [step_record _ hp, points_add _ p (limit_run (start limit) ops), recorded_record ops hp, ih]
        rcases Nat.eq_zero_or_pos limit with rfl | hpos
        · rw [if_pos rfl, if_pos rfl, if_pos rfl]
        · simp only [if_neg (Nat.pos_iff_ne_zero.mp hpos)]
          exact rtake_concat_rtake _ p limit
  refine ⟨points, ?_⟩
  rw [points]
  split
  · rfl
  · rw [List.rtake, List.length_drop]
    omega

/-- With a limit of zero a point stays that should be the first to go. -/
theorem points_run_limitZero :
    let ops : List Op := [.increment "request" (.int 1) []]
    ((start 0).run ops).points ≠ (recorded ops).drop ((recorded ops).length - 0) ∧
      ((start 0).run ops).points.length = 1 := by
  decide

end EventRouting.Stats
