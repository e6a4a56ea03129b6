import KnxTelegramStore.Lib.Calendar
import KnxTelegramStore.Sqlite.UtcMigration
import Mathlib.Logic.Function.Iterate

/-!
The single UPDATE that shifts a table into UTC (`_convert_table_to_utc` in
`backends/sqlite.py`), and the intervals its CASE is made of. They follow one
another without a gap, each ends at the very second of a transition, and every
transition in the range ends one; so each row in scope is shifted once, by the
offset at its own reading.
-/
namespace KnxTelegramStore.Sqlite
open StepFunction

variable {zone : Zone} {walk : Walk} {low stop cursor oldest newest c : ℤ} {ρ : Type}

/-- `_convert_table_to_utc`: what the UPDATE of a table sets in each row. -/
def convertTableToUtc (zone : Zone) (timestamp : ρ → ℤ) (inScope : ρ → Bool) (rows : List ρ) : Option (ρ → ℤ) :=
  (shiftExpression zone ((rows.filter inScope).map timestamp)).map fun shift row =>
    if inScope row then shift (timestamp row) else timestamp row

/-- A migration converts the two tables one after the other. -/
theorem migrate_eq (s : Upgraded) (zone : Zone) : s.migrate zone =
    if s.timestampsUtc then some s
    else do
      let telegrams ← convertTableToUtc zone (·.timestamp) (legacyRowScopes zone s).telegrams s.db.telegrams
      let lastGa ← convertTableToUtc zone (·.timestamp) (legacyRowScopes zone s).lastGa s.db.lastGa
      return { s with db := setTimestamps s.db telegrams lastGa, timestampsUtc := true } := by
  simp only [Upgraded.migrate, convertTableToUtc, Option.bind_eq_bind, Option.bind_map, Function.comp_def]

/-! ## The bisection -/

/-- One turn of the loop of `_transition_between`, or none once it is left. -/
def bisectTurn (zone : Zone) (offset : ℤ) (bracket : ℤ × ℤ) : ℤ × ℤ :=
  if second < bracket.2 - bracket.1 then
    let middle := bracket.1 + half (bracket.2 - bracket.1)
    if zone.offsetAt middle = offset then (middle, bracket.2) else (bracket.1, middle)
  else bracket

/-- **The bisection terminates**, whatever the zone: after some turns the
bracket is no wider than a second. -/
theorem bisect_terminates (zone : Zone) (offset before after : ℤ) :
    ∃ turns, let bracket := (bisectTurn zone offset)^[turns] (before, after)
      bracket.2 - bracket.1 ≤ second ∧ bracket.2 = bisect zone offset before after := by
  induction before, after using bisect.induct zone offset with
  | case1 before after wide middle same ih =>
    obtain ⟨turns, narrow, ended⟩ := ih
    have first : bisectTurn zone offset (before, after) = (middle, after) := by
      rw [bisectTurn, if_pos wide]
      exact if_pos same
    refine ⟨turns + 1, ?_⟩
    rw [Function.iterate_succ_apply, first, bisect, if_pos wide]
    dsimp only
    rw [if_pos same]
    exact ⟨narrow, ended⟩
  | case2 before after wide middle other ih =>
    obtain ⟨turns, narrow, ended⟩ := ih
    have first : bisectTurn zone offset (before, after) = (before, middle) := by
      rw [bisectTurn, if_pos wide]
      exact if_neg other
    refine ⟨turns + 1, ?_⟩
    rw [Function.iterate_succ_apply, first, bisect, if_pos wide]
    dsimp only
    rw [if_neg other]
    exact ⟨narrow, ended⟩
  | case3 before after narrow =>
    refine ⟨0, not_lt.mp narrow, ?_⟩
    rw [bisect, if_neg narrow]
    rfl

/-! ## The intervals -/

/-- Every interval that is complete ends at a transition. -/
def Walk.Bounded (zone : Zone) (walk : Walk) : Prop :=
  ∀ interval ∈ walk.intervals, Changes zone.offsetAt interval.endOf

theorem Walk.Bounded.visit (regular : zone.Regular) (walked : Walked zone low walk)
    (bounded : walk.Bounded zone) (next : cursor = walk.previous + hour) : (walk.visit zone cursor).Bounded zone := by
  have near : cursor ≤ walk.previous + hour := le_of_eq next
  have onward : walk.previous < cursor := by
    unfold hour second at next
    omega
  unfold Walk.visit
  rw [walked.current]
  dsimp only
  split
  · exact bounded
  · rename_i differ
    obtain ⟨c, after, upTo, changes, early, late⟩ :=
      regular.sparse.differ near (le_of_lt onward) (Ne.symm differ)
    have found : transitionBetween zone walk.previous cursor (zone.offsetAt walk.previous) = c :=
      transitionBetween_eq regular after upTo changes early fun x lower upper same => differ (late x lower upper ▸ same)
    rw [found]
    intro interval mem
    rcases List.mem_append.mp mem with old | new
    · exact bounded interval old
    · rw [List.mem_singleton.mp new]
      exact changes

theorem Walk.Bounded.run (regular : zone.Regular) (walked : Walked zone low walk) (bounded : walk.Bounded zone)
    (next : cursor = walk.previous + hour) : (Walk.run zone stop cursor walk).Bounded zone := by
  induction cursor, walk using Walk.run.induct zone stop with
  | case1 cursor walk more ih =>
    rw [Walk.run, if_pos more]
    exact ih (walked.visit regular next) (bounded.visit regular walked next) (by rw [visit_previous])
  | case2 cursor walk done =>
    rw [Walk.run, if_neg done]
    exact bounded

/-- Within intervals of constant offset there is no transition. -/
theorem Tiles.change_mem {high : ℤ} {intervals : List Interval} (tiles : Tiles zone low intervals high)
    (after : low < c)
    (upTo : c ≤ high) (changes : Changes zone.offsetAt c) : ∃ interval ∈ intervals, interval.endOf = c := by
  induction intervals generalizing low with
  | nil =>
    have same : low = high := tiles
    omega
  | cons interval rest ih =>
    obtain ⟨_, _, constant, others⟩ := tiles
    rcases lt_trichotomy c interval.endOf with inside | same | later
    · refine absurd ?_ changes
      rw [constant (c - 1) (by omega) (by omega), constant c (by omega) inside]
    · exact ⟨interval, List.mem_cons_self, same.symm⟩
    · obtain ⟨other, mem, same⟩ := ih others later
      exact ⟨other, List.mem_cons_of_mem _ mem, same⟩

/-- What `_offset_intervals` returns: consecutive intervals, each of its own
offset, from no later than `oldest` until after `newest`. All but the last end
at a transition, on a whole second, and every transition up to `newest` ends
one. -/
def Covers (zone : Zone) (oldest newest : ℤ) (intervals : List Interval) : Prop :=
  ∃ low front last, intervals = front ++ [last] ∧ low ≤ oldest ∧ Tiles zone low front last.start ∧
    newest < last.endOf ∧ (∀ x, last.start ≤ x → x ≤ newest → zone.offsetAt x = last.offset) ∧
    (∀ interval ∈ front, Changes zone.offsetAt interval.endOf ∧ second ∣ interval.endOf) ∧
    ∀ c, low < c → c ≤ newest → Changes zone.offsetAt c → ∃ interval ∈ front, interval.endOf = c

theorem offsetIntervals_covers (regular : zone.Regular) (ordered : oldest ≤ newest) :
    Covers zone oldest newest (offsetIntervals oldest newest zone) := by
  have floor : oldest - oldest % hour ≤ oldest := by
    unfold hour second
    omega
  have within : oldest - oldest % hour ≤ newest + hour := by
    unfold hour second
    omega
  have first : Walked zone (oldest - oldest % hour)
      (Walk.visit zone ⟨[], none, oldest - oldest % hour, oldest - oldest % hour⟩ (oldest - oldest % hour)) := by
    refine ⟨rfl, rfl, le_rfl, fun x low high => ?_⟩
    exact congrArg zone.offsetAt (le_antisymm high low)
  have empty : (Walk.visit zone ⟨[], none, oldest - oldest % hour, oldest - oldest % hour⟩
      (oldest - oldest % hour)).Bounded zone := fun _ mem => absurd mem List.not_mem_nil
  have bounded : (Walk.run zone (newest + hour) (oldest - oldest % hour + hour) _).Bounded zone :=
    empty.run regular first rfl
  obtain ⟨walked, past⟩ : Walked zone (oldest - oldest % hour)
      (Walk.run zone (newest + hour) (oldest - oldest % hour + hour) _) ∧ _ := first.run regular rfl
  unfold offsetIntervals
  dsimp only
  rw [Walk.run, if_pos within, walked.current]
  generalize Walk.run zone (newest + hour) _ _ = walk at bounded walked past
  have constant : ∀ x, walk.start ≤ x → x ≤ newest → zone.offsetAt x = zone.offsetAt walk.previous :=
    fun x low high => walked.constant x low (by omega)
  refine ⟨_, walk.intervals, _, rfl, floor, walked.tiles, ?_, constant, fun interval mem => ?_,
    fun c after upTo changes => ?_⟩
  · show newest < newest + hour + hour
    unfold hour second
    omega
  · have changes := bounded interval mem
    exact ⟨changes, regular.onSeconds _ (regular.changes.mp changes)⟩
  · by_cases inside : c ≤ walk.start
    · exact walked.tiles.change_mem after inside changes
    · refine absurd ?_ changes
      rw [constant (c - 1) (by omega) (by omega), constant c (by omega) upTo]

/-! ## The UPDATE -/

/-- A reading in the years 2 to 9998. -/
def InnerYears (reading : ℤ) : Prop :=
  Calendar.daysBeforeYear 2 * 86400000000 + DateTime.minWall ≤ reading ∧
    reading < Calendar.daysBeforeYear 9999 * 86400000000 + DateTime.minWall

theorem InnerYears.inCalendar {reading : ℤ} (inner : InnerYears reading) :
    DateTime.minWall ≤ reading ∧ reading + 2 * hour ≤ DateTime.maxWall := by
  have first : Calendar.daysBeforeYear 2 = 365 := rfl
  have last : Calendar.daysBeforeYear 9999 = 3651694 := rfl
  unfold InnerYears at inner
  unfold hour second DateTime.minWall DateTime.maxWall at *
  omega

end KnxTelegramStore.Sqlite
