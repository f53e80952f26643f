import Mathlib.Algebra.Order.Ring.Nat
import Mathlib.Data.List.Induction
import Microcomputer.Device.Timer

/-!
How a timer accounts for the time that passes.

Time reaches a timer by two kinds of calls, which share what is gathered towards the next firing: `advance`
lets a span pass, `poll` the time since the last poll. `total` is the time that a run of calls accounts for,
whatever calls it comes in.

* `advance_accounts`: a timer that has gathered the total modulo its period fires exactly if the total comes
  to a further whole period, and has gathered the new total modulo the period then.
* `calls_account_for_total`: so it is along any run of calls, and the ticks count the calls that fired.
-/

namespace Microcomputer

namespace Timer

/-! ## Calls -/

/-- A call of the timer: a span of time passes, or the clock is read. -/
inductive Call
  | advance (span : Nat)
  | poll (now : Nat)
  deriving DecidableEq, Repr

/-- Whether the timer fires at a call, and the timer after it, unless it cannot take the call. -/
def answer? (t : Timer) : Call → Option (Bool × Timer)
  | .advance span => t.advance? span
  | .poll now => t.poll? now

/-- The answers to calls one after the other, and the timer after all of them. -/
def answers? (t : Timer) : List Call → Option (List Bool × Timer)
  | [] => some ([], t)
  | call :: rest =>
    (t.answer? call).bind fun a => (a.2.answers? rest).map fun r => (a.1 :: r.1, r.2)

theorem answers?_concat (t : Timer) (calls : List Call) (call : Call) :
    t.answers? (calls ++ [call]) =
      (t.answers? calls).bind fun r => (r.2.answer? call).map fun a => (r.1 ++ [a.1], a.2) := by
  induction calls generalizing t with
  | nil =>
    simp only [List.nil_append, answers?, Option.bind_some, Option.map_some]
    cases t.answer? call <;> rfl
  | cons first rest ih =>
    simp only [List.cons_append, answers?, ih]
    cases t.answer? first with
    | none => rfl
    | some next =>
      simp only [Option.bind_some]
      cases next.2.answers? rest with
      | none => rfl
      | some reached =>
        simp only [Option.bind_some, Option.map_some]
        cases reached.2.answer? call <;> rfl

/-! ## The time that calls account for -/

def Call.span : Call → Nat
  | .advance span => span
  | .poll _ => 0

def Call.instant? : Call → Option Nat
  | .advance _ => none
  | .poll now => some now

/-- The instants of the polls, in order. -/
def instants (calls : List Call) : List Nat := calls.filterMap Call.instant?

/-- The sum of all spans, and the time from the first poll to the last. -/
def total (calls : List Call) : Nat :=
  (calls.map Call.span).sum + ((instants calls).getLast?.getD 0 - (instants calls).head?.getD 0)

/-- Whether the total comes to a further whole period with the call that follows the first `k`. -/
def fires (period : Nat) (calls : List Call) (k : Nat) : Bool :=
  total (calls.take k) / period < total (calls.take (k + 1)) / period

def firings (period : Nat) (calls : List Call) : List Bool :=
  (List.range calls.length).map (fires period calls)

/-- The time that a call lets pass. -/
def spent (t : Timer) : Call → Nat
  | .advance span => span
  | .poll now => t.sinceLastPoll now

theorem take_concat_all (calls : List Call) (call : Call) :
    (calls ++ [call]).take (calls.length + 1) = calls ++ [call] :=
  List.take_of_length_le (by simp)

theorem firings_concat (period : Nat) (calls : List Call) (call : Call) :
    firings period (calls ++ [call]) =
      firings period calls ++ [decide (total calls / period < total (calls ++ [call]) / period)] := by
  have hbefore : ∀ k < calls.length, fires period (calls ++ [call]) k = fires period calls k := by
    intro k hk
    rw [fires, fires, List.take_append_of_le_length (Nat.le_of_lt hk), List.take_append_of_le_length hk]
  have hlast : fires period (calls ++ [call]) calls.length =
      decide (total calls / period < total (calls ++ [call]) / period) := by
    rw [fires, List.take_left, take_concat_all]
  rw [firings, List.length_append, List.length_singleton, List.range_succ, List.map_append,
    List.map_singleton, hlast, firings]
  congr 1
  exact List.map_congr_left fun k hk => hbefore k (List.mem_range.mp hk)

theorem instants_concat (calls : List Call) (call : Call) :
    instants (calls ++ [call]) = instants calls ++ call.instant?.toList := by
  rw [instants, List.filterMap_append]
  cases call <;> rfl

/-- With each call the total grows by the time that the call lets pass. -/
theorem total_concat {t : Timer} {calls : List Call} (call : Call)
    (hlast : t.lastPoll = (instants calls).getLast?)
    (hordered : (instants (calls ++ [call])).Pairwise (· ≤ ·)) :
    total (calls ++ [call]) = total calls + t.spent call := by
  rw [instants_concat] at hordered
  simp only [total, instants_concat, List.map_append, List.sum_append, List.map_singleton, List.sum_singleton]
  cases call with
  | advance span =>
    simp only [Call.span, Call.instant?, Option.toList_none, List.append_nil, spent]
    omega
  | poll now =>
    simp only [Call.span, Call.instant?, Option.toList_some, spent, sinceLastPoll, hlast] at hordered ⊢
    cases hi : instants calls with
    | nil => simp
    | cons first rest =>
      obtain ⟨last, hl⟩ :=
        Option.isSome_iff_exists.mp (List.getLast?_isSome.mpr (List.cons_ne_nil first rest))
      have hmem := List.mem_of_getLast? hl
      rw [hi, List.pairwise_append, List.pairwise_cons] at hordered
      obtain ⟨⟨hfirst, -⟩, -, hnow⟩ := hordered
      -- The first instant is no later than the last one so far, and that no later than `now`.
      have hspan : first ≤ last := by
        rcases List.mem_cons.mp hmem with rfl | hrest
        · exact Nat.le_refl _
        · exact hfirst last hrest
      have hlater : last ≤ now := hnow last hmem now (List.mem_singleton_self now)
      rw [List.getLast?_concat, hl, List.cons_append, List.head?_cons, List.head?_cons]
      simp only [Option.getD_some]
      omega

/-- A timer that has gathered the total modulo its period fires exactly if the total comes to a further whole
period, and has gathered the new total modulo the period then. -/
theorem advance_accounts {t : Timer} {sum : Nat} (span : Nat) (hon : 0 < t.period)
    (hperiod : t.period ≤ 2 ^ 64) (helapsed : t.elapsed = sum % t.period) :
    (t.advance span).1 = decide (sum / t.period < (sum + span) / t.period) ∧
      (t.advance span).2.elapsed = (sum + span) % t.period := by
  have hdiv : (sum + span) / t.period = sum / t.period + (t.elapsed + span) / t.period := by
    calc (sum + span) / t.period
        = (t.period * (sum / t.period) + (t.elapsed + span)) / t.period := by
          rw [helapsed, ← Nat.add_assoc, Nat.div_add_mod]
      _ = sum / t.period + (t.elapsed + span) / t.period := Nat.mul_add_div hon _ _
  have hmod : (sum + span) % t.period = (t.elapsed + span) % t.period := by
    rw [helapsed, Nat.mod_add_mod]
  rw [hdiv, hmod, advance, dif_neg (Nat.ne_of_gt hon)]
  split
  · next hshort =>
    rw [Nat.div_eq_of_lt hshort, Nat.mod_eq_of_lt hshort]
    simp
  · next hfull =>
    have hpos : 0 < (t.elapsed + span) / t.period := Nat.div_pos (Nat.le_of_not_lt hfull) hon
    have hlt := Nat.mod_lt (t.elapsed + span) hon
    refine ⟨(decide_eq_true (by omega)).symm, Nat.mod_eq_of_lt (Nat.lt_of_lt_of_le hlt hperiod)⟩

/-! ## Runs of calls -/

/-- The timer can take the call: what it has gathered then still fits into a span, and the clock shows the
instant. -/
def Takes (t : Timer) (call : Call) : Prop :=
  t.elapsed + t.spent call < spanLimit ∧ ∀ now ∈ call.instant?, now < instantLimit

/-- A call that the timer can take lets its time pass; a poll leaves its instant. -/
theorem answer?_of_takes {t : Timer} {call : Call} (h : t.Takes call) :
    t.answer? call =
      some (({ t with lastPoll := call.instant?.or t.lastPoll } : Timer).advance (t.spent call)) := by
  obtain ⟨hroom, hinstant⟩ := h
  cases call with
  | advance span => exact if_pos (.inr hroom)
  | poll now => exact if_pos ⟨hinstant now rfl, .inr hroom⟩

/-- The timer stands as the calls leave one of period `P` that was new at the first of them. -/
structure Accounts (P : Nat) (calls : List Call) (t : Timer) : Prop where
  period : t.period = P
  elapsed : t.elapsed = total calls % P
  lastPoll : t.lastPoll = (instants calls).getLast?
  ticks : t.ticks = .ofNat ((firings P calls).count true)

theorem Accounts.answer {P : Nat} {calls : List Call} {call : Call} {t : Timer}
    (h : Accounts P calls t) (hon : 0 < P) (hperiod : P ≤ 2 ^ 64)
    (hordered : (instants (calls ++ [call])).Pairwise (· ≤ ·)) (htakes : t.Takes call) :
    ∃ u, t.answer? call =
        some (decide (total calls / P < total (calls ++ [call]) / P), u) ∧
      Accounts P (calls ++ [call]) u := by
  obtain ⟨rfl, helapsed, hlast, hticks⟩ := h
  let polled : Timer := { t with lastPoll := call.instant?.or t.lastPoll }
  have htotal := total_concat call hlast hordered
  obtain ⟨hfired, hgathered⟩ :=
    advance_accounts (t := polled) (t.spent call) hon hperiod helapsed
  rw [← htotal] at hfired hgathered
  refine ⟨(polled.advance (t.spent call)).2, ?_, ?_, hgathered, ?_, ?_⟩
  · rw [answer?_of_takes htakes, ← hfired]
  · exact period_advance _ _
  · rw [lastPoll_advance, instants_concat, List.getLast?_append, ← hlast]
    cases call <;> rfl
  · rw [ticks_advance, firings_concat, List.count_append, UInt64.ofNat_add, ← hticks, hfired]
    cases decide (total calls / t.period < total (calls ++ [call]) / t.period) <;> rfl

theorem accounts_fresh (P : Nat) : Accounts P [] (ofPeriod P) := ⟨rfl, (Nat.zero_mod P).symm, rfl, rfl⟩

/-- What a fresh timer has gathered fits into a span at each of the calls. -/
def Fits (P : Nat) (calls : List Call) : Prop :=
  ∀ k < calls.length,
    total (calls.take k) % P + (total (calls.take (k + 1)) - total (calls.take k)) < spanLimit

instance (P : Nat) (calls : List Call) : Decidable (Fits P calls) :=
  inferInstanceAs (Decidable (∀ k < calls.length, _))

theorem fits_concat {P : Nat} {calls : List Call} {call : Call} :
    Fits P (calls ++ [call]) ↔
      Fits P calls ∧ total calls % P + (total (calls ++ [call]) - total calls) < spanLimit := by
  have hlength : (calls ++ [call]).length = calls.length + 1 := List.length_append
  rw [Fits, Fits, hlength]
  constructor
  · intro h
    refine ⟨fun k hk => ?_, ?_⟩
    · have hroom := h k (Nat.lt_succ_of_lt hk)
      rwa [List.take_append_of_le_length (Nat.le_of_lt hk), List.take_append_of_le_length hk] at hroom
    · have hroom := h calls.length (Nat.lt_succ_self _)
      rwa [List.take_left, take_concat_all] at hroom
  · rintro ⟨hinit, hlast⟩ k hk
    rcases Nat.lt_succ_iff_lt_or_eq.mp hk with hlt | rfl
    · rw [List.take_append_of_le_length (Nat.le_of_lt hlt), List.take_append_of_le_length hlt]
      exact hinit k hlt
    · rw [List.take_left, take_concat_all]
      exact hlast

theorem accounts_answers {P : Nat} {calls : List Call} (hon : 0 < P) (hperiod : P ≤ 2 ^ 64)
    (hordered : (instants calls).Pairwise (· ≤ ·)) (hinstants : ∀ now ∈ instants calls, now < instantLimit)
    (hfits : Fits P calls) :
    ∃ t, (ofPeriod P).answers? calls = some (firings P calls, t) ∧ Accounts P calls t := by
  induction calls using List.reverseRecOn with
  | nil => exact ⟨ofPeriod P, rfl, accounts_fresh P⟩
  | append_singleton init call ih =>
    obtain ⟨hinit, hroom⟩ := fits_concat.mp hfits
    have hsublist : (instants init).Sublist (instants (init ++ [call])) := by
      rw [instants_concat]
      exact List.sublist_append_left _ _
    obtain ⟨t, hanswers, haccounts⟩ :=
      ih (hordered.sublist hsublist) (fun now hnow => hinstants now (hsublist.subset hnow)) hinit
    have htakes : t.Takes call := by
      rw [total_concat call haccounts.lastPoll hordered, Nat.add_sub_cancel_left] at hroom
      refine ⟨haccounts.elapsed ▸ hroom, fun now hnow => hinstants now ?_⟩
      rw [instants_concat]
      exact List.mem_append_right _ (Option.mem_toList.mpr hnow)
    obtain ⟨u, hanswer, hnext⟩ := haccounts.answer hon hperiod hordered htakes
    refine ⟨u, ?_, hnext⟩
    rw [answers?_concat, hanswers, Option.bind_some, hanswer, firings_concat]
    rfl

/-- A period of zero switches the timer off. -/
theorem answers?_of_off {t : Timer} (hoff : t.period = 0) (calls : List Call)
    (hinstants : ∀ now ∈ instants calls, now < instantLimit) :
    ∃ u, t.answers? calls = some (List.replicate calls.length false, u) := by
  induction calls generalizing t with
  | nil => exact ⟨t, rfl⟩
  | cons call rest ih =>
    have hrest : ∀ now ∈ instants rest, now < instantLimit := fun now hnow =>
      hinstants now ((List.sublist_cons_self call rest).filterMap Call.instant? |>.subset hnow)
    have hanswer : ∃ v : Timer, v.period = 0 ∧ t.answer? call = some (false, v) := by
      cases call with
      | advance span => exact ⟨t, hoff, (if_pos (.inl hoff)).trans (congrArg some (advance_off t span hoff))⟩
      | poll now =>
        let polled : Timer := { t with lastPoll := some now }
        have hnow : now < instantLimit := hinstants now List.mem_cons_self
        exact ⟨polled, hoff, (if_pos ⟨hnow, .inl hoff⟩).trans (congrArg some (advance_off polled _ hoff))⟩
    obtain ⟨v, hv, hcall⟩ := hanswer
    obtain ⟨u, hu⟩ := ih hv hrest
    refine ⟨u, ?_⟩
    rw [answers?, hcall, Option.bind_some, hu]
    rfl

/-- A timer that is new or has been reset accounts for all time, however it is cut into calls. Its ticks are the
calls that fired, counted modulo `2^64`. -/
theorem calls_account_for_total (P : Nat) (start : Timer) (calls : List Call)
    (hstart : start = ofPeriod P ∨ ∃ t : Timer, t.period = P ∧ start = t.reset)
    (hinstants : ∀ now ∈ instants calls, now < instantLimit) :
    (P = 0 → ∃ t, start.answers? calls = some (List.replicate calls.length false, t)) ∧
      (0 < P → P ≤ 2 ^ 64 → (instants calls).Pairwise (· ≤ ·) → Fits P calls →
        ∃ t, start.answers? calls = some (firings P calls, t) ∧ t.elapsed = total calls % P ∧
          t.ticks = .ofNat ((firings P calls).count true)) := by
  have hfresh : start = ofPeriod P := by
    rcases hstart with rfl | ⟨t, rfl, rfl⟩ <;> rfl
  rw [hfresh]
  refine ⟨fun hoff => answers?_of_off hoff calls hinstants, fun hon hperiod hordered hfits => ?_⟩
  obtain ⟨t, hanswers, haccounts⟩ := accounts_answers hon hperiod hordered hinstants hfits
  exact ⟨t, hanswers, haccounts.elapsed, haccounts.ticks⟩

/-- The first poll only starts the clock's part, and the second span holds three periods and a half. -/
def sliced : List Call := [.advance 60, .poll 1000, .poll 1050, .advance 350, .poll 1090]

theorem sliced_accounted :
    ∃ t, (ofPeriod 100).answers? sliced = some ([false, false, true, true, true], t) ∧
      t.elapsed = 500 % 100 ∧ t.ticks = 3 := by
  have hinstants : ∀ now ∈ instants sliced, now < instantLimit := by decide
  obtain ⟨-, hruns⟩ := calls_account_for_total 100 (ofPeriod 100) sliced (.inl rfl) hinstants
  exact hruns (by decide) (by decide) (by decide) (by decide)

end Timer

end Microcomputer
