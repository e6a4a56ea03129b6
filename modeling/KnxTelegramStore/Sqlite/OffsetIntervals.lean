import KnxTelegramStore.Lib.StepFunction

/-!
How `backends/sqlite.py` finds the UTC offsets of a zone over a range of
wall-clock readings: an hourly walk that bisects every hour whose ends differ,
and the CASE of the UPDATE that is made of the stretches it finds. For a zone
whose offsets last an hour at least and change on whole seconds, the CASE gives
each reading the offset in force at it (`caseOffset_eq`).
-/
namespace KnxTelegramStore.Sqlite
open StepFunction

/-- A second, and an hour, in microseconds. -/
def second : ℤ := 1000000
def hour : ℤ := 3600 * second

/-- The `tzinfo` that wrote a legacy database. -/
structure Zone where
  /-- `utcoffset()` of a naive wall-clock reading, on its first pass -/
  utcoffset : ℤ → ℤ
  /-- the wall-clock reading of an instant, `astimezone()` -/
  wallClock : ℤ → ℤ

/-- The offsets of a zone are whole seconds, change on whole seconds and last
for an hour at least. -/
structure Zone.Regular (zone : Zone) : Prop where
  seconds : ∀ wall, second ∣ zone.utcoffset wall
  onSeconds : ∀ c, Changes zone.utcoffset c → second ∣ c
  hourly : Sparse zone.utcoffset hour

/-- `_offset_at`, in seconds. -/
def Zone.offsetAt (zone : Zone) (moment : ℤ) : ℤ := (zone.utcoffset moment).tdiv second

/-- `timedelta / 2`, which rounds half a microsecond to the even one. -/
def half (delta : ℤ) : ℤ := if delta % 4 = 3 then delta / 2 + 1 else delta / 2

/-- The loop of `_transition_between`. -/
def bisect (zone : Zone) (offset before after : ℤ) : ℤ :=
  if second < after - before then
    let middle := before + half (after - before)
    if zone.offsetAt middle = offset then bisect zone offset middle after else bisect zone offset before middle
  else after
termination_by (after - before).toNat
decreasing_by
  all_goals
    unfold half second at *
    split <;> omega

/-- `_transition_between`. -/
def transitionBetween (zone : Zone) (before after offset : ℤ) : ℤ :=
  let found := bisect zone offset before after
  found - found % second

/-- A stretch of constant offset, without its end. -/
structure Interval where
  start : ℤ
  endOf : ℤ
  offset : ℤ

/-- The variables of `_offset_intervals`. -/
structure Walk where
  intervals : List Interval
  currentOffset : Option ℤ
  start : ℤ
  previous : ℤ

/-- One turn of its loop. -/
def Walk.visit (zone : Zone) (walk : Walk) (cursor : ℤ) : Walk :=
  let offset := zone.offsetAt cursor
  match walk.currentOffset with
  | none => { walk with currentOffset := some offset, start := cursor, previous := cursor }
  | some current =>
    if offset = current then { walk with previous := cursor }
    else
      let boundary := transitionBetween zone walk.previous cursor current
      { intervals := walk.intervals ++ [⟨walk.start, boundary, current⟩]
        currentOffset := some offset
        start := boundary
        previous := cursor }

def Walk.run (zone : Zone) (stop cursor : ℤ) (walk : Walk) : Walk :=
  if cursor ≤ stop then Walk.run zone stop (cursor + hour) (walk.visit zone cursor) else walk
termination_by (stop + hour - cursor).toNat
decreasing_by
  unfold hour second
  omega

/-- `_offset_intervals`. -/
def offsetIntervals (oldest newest : ℤ) (zone : Zone) : List Interval :=
  let cursor := oldest - oldest % hour
  let stop := newest + hour
  let walk := Walk.run zone stop cursor ⟨[], none, cursor, cursor⟩
  match walk.currentOffset with
  | none => walk.intervals
  | some current => walk.intervals ++ [⟨walk.start, stop + hour, current⟩]

/-- The CASE of the UPDATE: a branch for every interval but the last, which is
the ELSE. -/
def caseOffset : List Interval → ℤ → ℤ
  | [], _ => 0
  | [last], _ => last.offset
  | interval :: rest, timestamp => if timestamp < interval.endOf then interval.offset else caseOffset rest timestamp

variable {zone : Zone} {offset before after c : ℤ}

/-! ## One transition -/

theorem half_between {delta : ℤ} (wide : second < delta) : 0 < half delta ∧ half delta < delta := by
  unfold half second at *
  split <;> omega

/-- The bisection ends less than a second behind the change it brackets. -/
theorem bisect_brackets (low : before < c) (high : c ≤ after)
    (early : ∀ x, before ≤ x → x < c → zone.offsetAt x = offset)
    (late : ∀ x, c ≤ x → x ≤ after → zone.offsetAt x ≠ offset) :
    c ≤ bisect zone offset before after ∧ bisect zone offset before after < c + second := by
  induction before, after using bisect.induct zone offset with
  | case1 before after wide middle same ih =>
    obtain ⟨up, down⟩ := half_between wide
    have taken : bisect zone offset before after = bisect zone offset middle after := by
      rw [bisect, if_pos wide]
      exact if_pos same
    rw [taken]
    have below : middle < c := by
      by_contra above
      exact late middle (not_lt.mp above) (by omega) same
    exact ih below high (fun x lower => early x (by omega)) late
  | case2 before after wide middle other ih =>
    obtain ⟨up, down⟩ := half_between wide
    have taken : bisect zone offset before after = bisect zone offset before middle := by
      rw [bisect, if_pos wide]
      exact if_neg other
    rw [taken]
    have above : c ≤ middle := by
      by_contra below
      exact other (early middle (by omega) (not_le.mp below))
    exact ih low above early fun x lower upper => late x lower (by omega)
  | case3 before after narrow =>
    rw [bisect, if_neg narrow]
    omega

theorem Zone.Regular.offsetAt_mul (regular : zone.Regular) (moment : ℤ) :
    zone.offsetAt moment * second = zone.utcoffset moment :=
  Int.tdiv_mul_cancel (regular.seconds moment)

theorem Zone.Regular.offsetAt_eq (regular : zone.Regular) {x y : ℤ} :
    zone.offsetAt x = zone.offsetAt y ↔ zone.utcoffset x = zone.utcoffset y := by
  constructor
  · intro same
    rw [← regular.offsetAt_mul x, ← regular.offsetAt_mul y, same]
  · intro same
    rw [Zone.offsetAt, same, Zone.offsetAt]

theorem Zone.Regular.changes (regular : zone.Regular) : Changes zone.offsetAt c ↔ Changes zone.utcoffset c :=
  not_congr regular.offsetAt_eq

theorem Zone.Regular.sparse (regular : zone.Regular) : Sparse zone.offsetAt hour := by
  intro c c' changes changes'
  exact regular.hourly c c' (regular.changes.mp changes) (regular.changes.mp changes')

/-- Within an hour the transition is found to the second. -/
theorem transitionBetween_eq (regular : zone.Regular) (low : before < c) (high : c ≤ after)
    (changes : Changes zone.offsetAt c) (early : ∀ x, before ≤ x → x < c → zone.offsetAt x = offset)
    (late : ∀ x, c ≤ x → x ≤ after → zone.offsetAt x ≠ offset) : transitionBetween zone before after offset = c := by
  obtain ⟨from_, upTo⟩ := bisect_brackets low high early late
  obtain ⟨k, rfl⟩ := regular.onSeconds c (regular.changes.mp changes)
  unfold transitionBetween second at *
  dsimp only
  omega

/-! ## The walk -/

/-- Consecutive stretches, each of its own offset. -/
def Tiles (zone : Zone) : ℤ → List Interval → ℤ → Prop
  | low, [], high => low = high
  | low, interval :: rest, high =>
    interval.start = low ∧ low < interval.endOf ∧
      (∀ x, low ≤ x → x < interval.endOf → zone.offsetAt x = interval.offset) ∧ Tiles zone interval.endOf rest high

theorem Tiles.snoc {low high : ℤ} {intervals : List Interval} {last : Interval} (tiles : Tiles zone low intervals high)
    (start : last.start = high) (proper : high < last.endOf)
    (constant : ∀ x, high ≤ x → x < last.endOf → zone.offsetAt x = last.offset) :
    Tiles zone low (intervals ++ [last]) last.endOf := by
  induction intervals generalizing low with
  | nil =>
    cases tiles
    exact ⟨start, proper, constant, rfl⟩
  | cons interval rest ih =>
    obtain ⟨first, grows, own, others⟩ := tiles
    exact ⟨first, grows, own, ih others⟩

/-- What the loop keeps: the intervals tile the range up to `start`, and the
offset has been the same from there to the last turn. -/
structure Walked (zone : Zone) (low : ℤ) (walk : Walk) : Prop where
  tiles : Tiles zone low walk.intervals walk.start
  current : walk.currentOffset = some (zone.offsetAt walk.previous)
  started : walk.start ≤ walk.previous
  constant : ∀ x, walk.start ≤ x → x ≤ walk.previous → zone.offsetAt x = zone.offsetAt walk.previous

variable {walk : Walk} {low stop cursor : ℤ}

theorem visit_previous (zone : Zone) (walk : Walk) (cursor : ℤ) : (walk.visit zone cursor).previous = cursor := by
  unfold Walk.visit
  dsimp only
  split
  · rfl
  · split <;> rfl

theorem Walked.visit (regular : zone.Regular) (walked : Walked zone low walk) (next : cursor = walk.previous + hour) :
    Walked zone low (walk.visit zone cursor) := by
  have near : cursor ≤ walk.previous + hour := le_of_eq next
  have onward : walk.previous < cursor := by
    unfold hour second at next
    omega
  unfold Walk.visit
  rw [walked.current]
  dsimp only
  split
  · rename_i same
    refine ⟨walked.tiles, congrArg some same.symm, walked.started.trans (le_of_lt onward), fun x from_ upTo => ?_⟩
    by_cases old : x ≤ walk.previous
    · exact (walked.constant x from_ old).trans same.symm
    · have steady := regular.sparse.same near same.symm (by omega : walk.previous ≤ x) upTo
      exact steady.trans same.symm
  · rename_i differ
    obtain ⟨c, after, upTo, changes, early, late⟩ :=
      regular.sparse.differ near (le_of_lt onward) (Ne.symm differ)
    have found : transitionBetween zone walk.previous cursor (zone.offsetAt walk.previous) = c :=
      transitionBetween_eq regular after upTo changes early fun x lower upper same => differ (late x lower upper ▸ same)
    rw [found]
    refine ⟨walked.tiles.snoc rfl ?_ fun x from_ below => ?_, rfl, upTo, late⟩
    · exact lt_of_le_of_lt walked.started after
    · by_cases old : x ≤ walk.previous
      · exact walked.constant x from_ old
      · exact early x (by omega) below

theorem Walked.run (regular : zone.Regular) (walked : Walked zone low walk) (next : cursor = walk.previous + hour) :
    Walked zone low (Walk.run zone stop cursor walk) ∧ stop < (Walk.run zone stop cursor walk).previous + hour := by
  induction cursor, walk using Walk.run.induct zone stop with
  | case1 cursor walk more ih =>
    rw [Walk.run, if_pos more]
    exact ih (walked.visit regular next) (by rw [visit_previous])
  | case2 cursor walk done =>
    rw [Walk.run, if_neg done]
    exact ⟨walked, next ▸ not_le.mp done⟩

/-! ## The CASE -/

/-- What the CASE gives is the offset of an interval. -/
theorem caseOffset_mem {intervals : List Interval} {x : ℤ} (some_ : caseOffset intervals x ≠ 0) :
    ∃ interval ∈ intervals, caseOffset intervals x = interval.offset := by
  induction intervals with
  | nil => exact absurd rfl some_
  | cons interval rest ih =>
    cases rest with
    | nil => exact ⟨interval, List.mem_cons_self, rfl⟩
    | cons next rest =>
      unfold caseOffset at some_ ⊢
      split
      · exact ⟨interval, List.mem_cons_self, rfl⟩
      · rename_i past
        rw [if_neg past] at some_
        obtain ⟨other, mem, same⟩ := ih some_
        exact ⟨other, List.mem_cons_of_mem _ mem, same⟩

theorem caseOffset_snoc {low high x : ℤ} {intervals : List Interval} {last : Interval}
    (tiles : Tiles zone low intervals high) (from_ : low ≤ x)
    (constant : high ≤ x → zone.offsetAt x = last.offset) :
    caseOffset (intervals ++ [last]) x = zone.offsetAt x := by
  induction intervals generalizing low with
  | nil =>
    cases tiles
    exact (constant from_).symm
  | cons interval rest ih =>
    obtain ⟨_, _, own, others⟩ := tiles
    have split : caseOffset (interval :: (rest ++ [last])) x =
        if x < interval.endOf then interval.offset else caseOffset (rest ++ [last]) x := by
      cases rest <;> rfl
    rw [List.cons_append, split]
    split_ifs with inside
    · exact (own x from_ inside).symm
    · exact ih others (not_lt.mp inside)

/-- **The CASE is exact**: every reading in the range gets the offset in force
at it. -/
theorem caseOffset_eq (regular : zone.Regular) {oldest newest x : ℤ} (from_ : oldest ≤ x) (upTo : x ≤ newest) :
    caseOffset (offsetIntervals oldest newest zone) x = zone.offsetAt x := by
  have floor : oldest - oldest % hour ≤ oldest := by
    unfold hour second
    omega
  have within : oldest - oldest % hour ≤ newest + hour := by
    unfold hour second
    omega
  unfold offsetIntervals
  dsimp only
  rw [Walk.run, if_pos within]
  have first : Walked zone (oldest - oldest % hour)
      (Walk.visit zone ⟨[], none, oldest - oldest % hour, oldest - oldest % hour⟩ (oldest - oldest % hour)) := by
    refine ⟨rfl, rfl, le_rfl, fun x low high => ?_⟩
    exact congrArg zone.offsetAt (le_antisymm high low)
  obtain ⟨walked, past⟩ : Walked zone (oldest - oldest % hour)
      (Walk.run zone (newest + hour) (oldest - oldest % hour + hour) _) ∧ _ := first.run regular rfl
  rw [walked.current]
  refine caseOffset_snoc walked.tiles (floor.trans from_) fun late => walked.constant x late ?_
  omega

end KnxTelegramStore.Sqlite
