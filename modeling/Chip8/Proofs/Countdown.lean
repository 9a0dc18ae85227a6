import Mathlib.Algebra.Order.Archimedean.Basic
import Mathlib.Data.List.Chain
import Mathlib.Data.Rat.Floor
import Mathlib.Tactic.Linarith
import Mathlib.Tactic.Ring
import Chip8.Timer

/-!
How fast a timer counts down, in exact time. A tick leaves the timer alone, moves its period or counts
(`Timer.tick_cases`). Since a tick that counts starts the next period, what had passed of that period is lost: a timer
set to `v` and polled with gaps no longer than `gap` is at zero `v` sixtieths and `v - 1` gaps after it was set, and no
sooner where the gaps fall badly (`Timer.count_ticks_of_gaps`). It is never early: it counts at most once in a sixtieth
(`Timer.History.mul_le`).
-/
namespace Chip8

theorem Time.sixtieth_pos : (0 : Rat) < Time.sixtieth := by decide +kernel

namespace Timer

/-! ### One tick -/

section
variable {τ : Type} [Time τ] {t : Timer τ} {now : τ}

/-- The three ways in which a tick goes: too early, with nothing left to count, and counting. -/
inductive Ticked (t : Timer τ) (now : τ) : Timer τ × Bool → Prop where
  | early (early : now - t.last < Time.sixtieth) : Ticked t now (t, false)
  | idle (due : ¬ now - t.last < Time.sixtieth) (zero : t.count = 0) : Ticked t now (⟨0, now⟩, false)
  | counted (due : ¬ now - t.last < Time.sixtieth) (left : t.count ≠ 0) : Ticked t now (⟨t.count - 1, now⟩, true)

theorem tick_cases (t : Timer τ) (now : τ) : t.Ticked now (t.tick now) := by
  unfold tick
  split
  next early => exact .early early
  next due =>
    split
    next zero =>
      rw [zero]
      exact .idle due zero
    next left => exact .counted due left

theorem tick_of_lt (early : now - t.last < Time.sixtieth) : t.tick now = (t, false) := by
  rw [tick, if_pos early]

theorem toNat_sub_one {count : Byte} (left : count ≠ 0) : (count - 1).toNat + 1 = count.toNat := by
  have positive : count.toNat ≠ 0 := fun zero => left (BitVec.eq_of_toNat_eq zero)
  have small := count.isLt
  have one : (1 : Byte).toNat = 1 := rfl
  rw [BitVec.toNat_sub, one]
  omega

/-- A tick takes one off the count if it says so, and else nothing. -/
theorem toNat_count_tick (t : Timer τ) (now : τ) :
    (t.tick now).1.count.toNat + (if (t.tick now).2 then 1 else 0) = t.count.toNat := by
  have ticked := t.tick_cases now
  generalize t.tick now = after at ticked ⊢
  cases ticked with
  | early => rfl
  | idle _ zero => rw [zero]; rfl
  | counted _ left => exact toNat_sub_one left

/-- What one tick leaves of a timer. Too early it changes nothing; else the next period begins with it, and a count
    above zero has gone down by one. -/
structure TickedOnce (t : Timer τ) (now : τ) (after : Timer τ) : Prop where
  early : now - t.last < Time.sixtieth → after = t
  due : ¬ now - t.last < Time.sixtieth → after.count.toNat = t.count.toNat - 1 ∧ after.last = now

theorem tickedOnce_tick (t : Timer τ) (now : τ) : t.TickedOnce now (t.tick now).1 := by
  have ticked := t.tick_cases now
  generalize t.tick now = after at ticked ⊢
  cases ticked with
  | early early => exact ⟨fun _ => rfl, fun due => absurd early due⟩
  | idle due zero => exact ⟨fun early => absurd early due, fun _ => ⟨by rw [zero]; rfl, rfl⟩⟩
  | counted due left => exact ⟨fun early => absurd early due, fun _ => ⟨Nat.eq_sub_of_add_eq (toNat_sub_one left), rfl⟩⟩

/-- The timer after ticks at the given times, in order. -/
def ticks (t : Timer τ) (times : List τ) : Timer τ := times.foldl (fun t now => (t.tick now).1) t

@[simp] theorem ticks_cons (t : Timer τ) (now : τ) (times : List τ) :
    t.ticks (now :: times) = (t.tick now).1.ticks times := rfl
@[simp] theorem ticks_append (t : Timer τ) (times more : List τ) :
    t.ticks (times ++ more) = (t.ticks times).ticks more := List.foldl_append

theorem ticks_of_early {times : List τ} (early : ∀ now ∈ times, now - t.last < Time.sixtieth) : t.ticks times = t := by
  induction times with
  | nil => rfl
  | cons now times ih =>
    obtain ⟨first, later⟩ := List.forall_mem_cons.1 early
    rw [ticks_cons, tick_of_lt first]
    exact ih later

end

/-! ### Settings and ticks -/

/-- Where settings and ticks lead on a clock that never goes back: to the timer; what it was set to last, and when; how
    often it has counted since then; and the time of the latest setting or tick. -/
inductive History : Timer Rat → Int → Rat → Nat → Rat → Prop where
  | made (value : Int) (now : Rat) : History (.start (.ofInt 8 value) now) value now 0 now
  | set {t : Timer Rat} {value : Int} {since now next : Rat} {counted : Nat}
      (before : History t value since counted now) (ordered : now ≤ next) (other : Int) :
      History (.start (.ofInt 8 other) next) other next 0 next
  | tick {t : Timer Rat} {value : Int} {since now next : Rat} {counted : Nat}
      (before : History t value since counted now) (ordered : now ≤ next) :
      History (t.tick next).1 value since (counted + if (t.tick next).2 then 1 else 0) next

namespace History
variable {t : Timer Rat} {value : Int} {since now : Rat} {counted : Nat}

/-- Every count since the timer was set has taken a sixtieth of the time up to the beginning of its period. -/
theorem mul_le (history : History t value since counted now) :
    counted * Time.sixtieth ≤ t.last - since ∧ t.last ≤ now := by
  induction history with
  | made | set => simp [Timer.start]
  | @tick t _ since now next counted _ ordered ih =>
    obtain ⟨account, past⟩ := ih
    have ticked := t.tick_cases next
    generalize t.tick next = after at ticked ⊢
    cases ticked with
    | early => exact ⟨by simpa using account, past.trans ordered⟩
    | idle =>
      refine ⟨?_, le_rfl⟩
      simp only [Bool.false_eq_true, if_false, Nat.add_zero]
      linarith
    | counted due =>
      refine ⟨?_, le_rfl⟩
      simp only [if_true, Nat.cast_succ]
      linarith

/-- What is left and what was counted make up what the timer was set to. -/
theorem toNat_add (history : History t value since counted now) :
    t.count.toNat + counted = (value % 256).toNat := by
  induction history with
  | made | set => exact BitVec.toNat_ofInt _
  | @tick t _ _ _ next _ _ _ ih =>
    have one := t.toNat_count_tick next
    omega

end History

/-! ### Ticks with short gaps -/

/-- The second time follows the first after no more than a gap. -/
def Soon (gap before now : Rat) : Prop := before ≤ now ∧ now ≤ before + gap

instance (gap : Rat) : DecidableRel (Soon gap) := fun _ _ => inferInstanceAs (Decidable (_ ∧ _))

/-- At the given time of its latest tick the timer, which was set to `v`, is in a period that has not passed, and the
    period began no later than every count before it may have taken, a sixtieth and a gap each. -/
structure Behind (v : Nat) (start gap : Rat) (t : Timer Rat) (now : Rat) : Prop where
  count_le : t.count.toNat ≤ v
  current : now < t.last + Time.sixtieth
  last_le : t.count ≠ 0 → t.last ≤ start + (v - t.count.toNat) * (Time.sixtieth + gap)

namespace Behind
variable {v : Nat} {start gap now next : Rat} {t : Timer Rat}

theorem tick (behind : Behind v start gap t now) (soon : Soon gap now next) :
    Behind v start gap (t.tick next).1 next := by
  have ticked := t.tick_cases next
  generalize t.tick next = after at ticked ⊢
  cases ticked with
  | early early => exact ⟨behind.count_le, by linarith, behind.last_le⟩
  | idle => exact ⟨Nat.zero_le v, lt_add_of_pos_right next Time.sixtieth_pos, fun left => absurd rfl left⟩
  | counted _ left =>
    have less := toNat_sub_one left
    refine ⟨by have := behind.count_le; dsimp only; omega, lt_add_of_pos_right next Time.sixtieth_pos, fun _ => ?_⟩
    have began := behind.last_le left
    have current := behind.current
    have one : (t.count.toNat : Rat) = (t.count - 1).toNat + 1 := by exact_mod_cast less.symm
    rw [one] at began
    have ahead : next ≤ t.last + (Time.sixtieth + gap) := by linarith [soon.2]
    calc next ≤ t.last + (Time.sixtieth + gap) := ahead
      _ ≤ start + (v - ((t.count - 1).toNat + 1)) * (Time.sixtieth + gap) + (Time.sixtieth + gap) := by gcongr
      _ = start + (v - (t.count - 1).toNat) * (Time.sixtieth + gap) := by ring

/-- With so many counts left the period began that much sooner. -/
theorem last_le_of_le {left : Nat} (behind : Behind v start gap t now) (nonneg : 0 ≤ gap) (nonzero : 0 < left)
    (least : left ≤ t.count.toNat) : t.last ≤ start + (v - left) * (Time.sixtieth + gap) := by
  have positive : t.count ≠ 0 := by
    intro zero
    rw [zero] at least
    exact absurd (nonzero.trans_le least) (by decide)
  have span : 0 ≤ Time.sixtieth + gap := by linarith [Time.sixtieth_pos]
  have least : (left : Rat) ≤ t.count.toNat := by exact_mod_cast least
  calc t.last ≤ start + (v - t.count.toNat) * (Time.sixtieth + gap) := behind.last_le positive
    _ ≤ start + (v - left) * (Time.sixtieth + gap) := by gcongr

/-- A tick so late that all counts but one were made, and a sixtieth has passed since, makes the last one. -/
theorem count_tick (behind : Behind v start gap t now) (soon : Soon gap now next)
    (late : start + v * Time.sixtieth + (v - 1 : Nat) * gap ≤ next) : (t.tick next).1.count = 0 := by
  have nonneg : 0 ≤ gap := by linarith [soon.1, soon.2]
  have counts : ∀ {left : Nat}, 0 < left → left ≤ t.count.toNat → ((v - 1 : Nat) : Rat) = v - 1 := by
    intro left nonzero least
    rw [Nat.cast_sub (nonzero.trans_le (least.trans behind.count_le)), Nat.cast_one]
  have ticked := t.tick_cases next
  generalize t.tick next = after at ticked ⊢
  cases ticked with
  | early early =>
    by_contra left
    have least : 1 ≤ t.count.toNat := Nat.pos_of_ne_zero fun zero => left (BitVec.eq_of_toNat_eq zero)
    have began := behind.last_le_of_le nonneg Nat.one_pos least
    rw [counts Nat.one_pos least] at late
    push_cast at began
    linarith
  | idle => rfl
  | counted _ left =>
    by_contra more
    have least : 2 ≤ t.count.toNat := by
      have less := toNat_sub_one left
      have rest := toNat_sub_one more
      dsimp only at rest
      omega
    have began := behind.last_le_of_le nonneg Nat.two_pos least
    have current := behind.current
    rw [counts Nat.two_pos least] at late
    push_cast at began
    linarith [soon.2, Time.sixtieth_pos]

/-- Ticks with short gaps stay so far behind, and the one that comes late enough is the last that is needed. -/
theorem count_ticks {times : List Rat} (behind : Behind v start gap t now)
    (chain : (now :: (times ++ [next])).IsChain (Soon gap))
    (late : start + v * Time.sixtieth + (v - 1 : Nat) * gap ≤ next) : (t.ticks (times ++ [next])).count = 0 := by
  induction times generalizing t now with
  | nil =>
    rw [List.nil_append, List.isChain_pair] at chain
    exact behind.count_tick chain late
  | cons first times ih =>
    rw [List.cons_append, List.isChain_cons_cons] at chain
    obtain ⟨soon, chain⟩ := chain
    rw [List.cons_append, ticks_cons]
    exact ih (behind.tick soon) chain

end Behind

theorem behind_start (v : Byte) (start gap : Rat) : Behind v.toNat start gap (.start v start) start where
  count_le := le_rfl
  current := lt_add_of_pos_right start Time.sixtieth_pos
  last_le _ := by
    rw [Timer.start, sub_self, zero_mul, add_zero]

/-! ### Gaps that fall badly -/

/-- Any span can be bridged in gaps. -/
theorem exists_chain {gap before now : Rat} (n : Nat) (positive : 0 < gap) (ordered : before ≤ now)
    (near : now ≤ before + n * gap) :
    ∃ times, (before :: (times ++ [now])).IsChain (Soon gap) ∧ ∀ time ∈ times, time ≤ now := by
  induction n generalizing before with
  | zero =>
    refine ⟨[], ?_, List.forall_mem_nil _⟩
    rw [Nat.cast_zero, zero_mul, add_zero] at near
    exact List.isChain_pair.2 ⟨ordered, by linarith⟩
  | succ n ih =>
    by_cases last : now ≤ before + gap
    · exact ⟨[], List.isChain_pair.2 ⟨ordered, last⟩, List.forall_mem_nil _⟩
    · have ordered : before + gap ≤ now := (not_le.1 last).le
      push_cast at near
      obtain ⟨times, chain, within⟩ := ih ordered (by linarith)
      refine ⟨(before + gap) :: times, ?_, List.forall_mem_cons.2 ⟨ordered, within⟩⟩
      rw [List.cons_append]
      exact List.isChain_cons_cons.2 ⟨⟨by linarith, le_rfl⟩, chain⟩

/-- Ticks that all come before a sixtieth has passed, up to any time in it. -/
theorem exists_early {gap now : Rat} (v : Byte) (start : Rat) (positive : 0 < gap) (ordered : start ≤ now)
    (early : now < start + Time.sixtieth) :
    ∃ times, (start :: (times ++ [now])).IsChain (Soon gap) ∧
      (Timer.start v start).ticks (times ++ [now]) = .start v start := by
  obtain ⟨n, enough⟩ := exists_nat_ge ((now - start) / gap)
  rw [div_le_iff₀ positive] at enough
  obtain ⟨times, chain, within⟩ := exists_chain n positive ordered (by linarith)
  refine ⟨times, chain, ticks_of_early ?_⟩
  intro time member
  have most : time ≤ now := by
    rcases List.mem_append.1 member with inside | last
    · exact within time inside
    · exact (List.mem_singleton.1 last).le
  show time - start < Time.sixtieth
  linarith

theorem tick_start {v : Byte} {start now : Rat} (left : v ≠ 0) (due : start + Time.sixtieth ≤ now) :
    ((Timer.start v start).tick now).1 = .start (v - 1) now := by
  have late : ¬ now - start < Time.sixtieth := by linarith
  rw [tick, Timer.start, if_neg late, if_neg left]
  rfl

/-- Where every tick that counts comes almost a gap too late, a count is left until just before all are due. -/
theorem exists_late {gap : Rat} (positive : 0 < gap) (short : gap ≤ Time.sixtieth) (n : Nat) {v : Byte}
    (count : v.toNat = n + 1) {start slack : Rat} (strict : 0 < slack) :
    ∃ times now, (start :: (times ++ [now])).IsChain (Soon gap) ∧
      start + (n + 1) * Time.sixtieth + n * gap - slack ≤ now ∧
      ((Timer.start v start).ticks (times ++ [now])).count ≠ 0 := by
  have left : v ≠ 0 := by
    intro zero
    rw [zero] at count
    cases count
  induction n generalizing v start slack with
  | zero =>
    have less := min_le_left slack Time.sixtieth
    have least : 0 < min slack Time.sixtieth := lt_min strict Time.sixtieth_pos
    have most := min_le_right slack Time.sixtieth
    have ordered : start ≤ start + Time.sixtieth - min slack Time.sixtieth := by linarith
    have early : start + Time.sixtieth - min slack Time.sixtieth < start + Time.sixtieth := by linarith
    obtain ⟨times, chain, same⟩ := exists_early v start positive ordered early
    refine ⟨times, _, chain, ?_, by rw [same]; exact left⟩
    rw [Nat.cast_zero]
    linarith
  | succ n ih =>
    -- The ticks come right up to the end of the period, so that the next one counts almost a gap too late.
    have less := min_le_left (slack / 2) gap
    have least : 0 < min (slack / 2) gap := lt_min (half_pos strict) positive
    have most := min_le_right (slack / 2) gap
    let before := start + Time.sixtieth - min (slack / 2) gap
    have ordered : start ≤ before := by dsimp only [before]; linarith
    have early : before < start + Time.sixtieth := by dsimp only [before]; linarith
    have due : start + Time.sixtieth ≤ before + gap := by dsimp only [before]; linarith
    obtain ⟨times, chain, same⟩ := exists_early v start positive ordered early
    have fewer : (v - 1).toNat = n + 1 := by
      have less := toNat_sub_one left
      omega
    have more : v - 1 ≠ 0 := by
      intro zero
      rw [zero] at fewer
      cases fewer
    obtain ⟨rest, now, onward, late, remains⟩ := @ih (v - 1) fewer (before + gap) (slack / 2) (half_pos strict) more
    refine ⟨times ++ before :: (before + gap) :: rest, now, ?_, ?_, ?_⟩
    · have soon : Soon gap before (before + gap) := ⟨by linarith, le_rfl⟩
      have whole : start :: ((times ++ before :: (before + gap) :: rest) ++ [now]) =
          (start :: times) ++ before :: (before + gap) :: (rest ++ [now]) := by simp
      rw [whole, List.isChain_split]
      exact ⟨chain, List.isChain_cons_cons.2 ⟨soon, onward⟩⟩
    · push_cast
      dsimp only [before] at late
      linarith
    · have whole : (times ++ before :: (before + gap) :: rest) ++ [now] =
          (times ++ [before]) ++ (before + gap) :: (rest ++ [now]) := by simp
      rw [whole, ticks_append, same, ticks_cons, tick_start left due]
      exact remains

/-- A timer set to `v` and polled with gaps no longer than `gap` is at zero after any tick that comes `v` sixtieths and
    `v - 1` gaps after it was set, or later. If the gaps may be anything up to a sixtieth, no sooner time will do. -/
theorem count_ticks_of_gaps (v : Byte) (start gap : Rat) :
    (∀ times now, (start :: (times ++ [now])).IsChain (Soon gap) →
      start + v.toNat * Time.sixtieth + (v.toNat - 1 : Nat) * gap ≤ now →
      ((Timer.start v start).ticks (times ++ [now])).count = 0) ∧
    (v ≠ 0 → 0 < gap → gap ≤ Time.sixtieth →
      ∀ sooner < start + v.toNat * Time.sixtieth + (v.toNat - 1 : Nat) * gap,
        ∃ times now, (start :: (times ++ [now])).IsChain (Soon gap) ∧ sooner ≤ now ∧
          ((Timer.start v start).ticks (times ++ [now])).count ≠ 0) := by
  refine ⟨fun times now => (behind_start v start gap).count_ticks, ?_⟩
  intro left positive short sooner before
  obtain ⟨n, count⟩ : ∃ n, v.toNat = n + 1 := ⟨(v - 1).toNat, (toNat_sub_one left).symm⟩
  obtain ⟨times, now, chain, late, remains⟩ := exists_late positive short n count (sub_pos.2 before)
  refine ⟨times, now, chain, ?_, remains⟩
  rw [count, Nat.add_sub_cancel, Nat.cast_succ] at late
  linarith

theorem count_ticks_of_gaps_two : ((Timer.start 2 (0 : Rat)).ticks [1 / 64, 1 / 32, 3 / 64, 1 / 16]).count = 0 ∧
    ∃ times now, ((0 : Rat) :: (times ++ [now])).IsChain (Soon Time.sixtieth) ∧ 3 / 64 ≤ now ∧
      ((Timer.start 2 0).ticks (times ++ [now])).count ≠ 0 := by
  obtain ⟨zero, tight⟩ := count_ticks_of_gaps 2 0 Time.sixtieth
  refine ⟨zero [1 / 64, 1 / 32, 3 / 64] (1 / 16) (by decide +kernel) (by decide +kernel), ?_⟩
  exact tight (by decide) Time.sixtieth_pos le_rfl (3 / 64) (by decide +kernel)

/-- Gaps of no more than a sixtieth are not short enough for a timer to be at zero as soon as its count of sixtieths has
    passed: set to two and polled every sixty-fourth of a second, it is not after three ticks. -/
theorem count_ticks_late : ¬ ∀ (v : Byte) (start : Rat) (times : List Rat) (now : Rat),
    (start :: (times ++ [now])).IsChain (Soon Time.sixtieth) → start + v.toNat * Time.sixtieth ≤ now →
    ((Timer.start v start).ticks (times ++ [now])).count = 0 := by
  intro law
  have zero := law 2 0 [1 / 64, 1 / 32] (3 / 64) (by decide +kernel) (by decide +kernel)
  have one : ((Timer.start 2 (0 : Rat)).ticks ([1 / 64, 1 / 32] ++ [3 / 64])).count = 1 := by decide +kernel
  rw [one] at zero
  cases zero

end Timer

end Chip8
