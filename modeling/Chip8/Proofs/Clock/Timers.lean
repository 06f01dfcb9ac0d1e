import Chip8.Proofs.Clock.Signs

/-! # The timers' account

A clock keeps one account of cycles and one of timer ticks. What a tick finds due for the timers
comes from the readings, the limit and the timers' own frequency. The frequency of the
instructions, the credit of cycles and the cycles dropped have no part in it, as long as the tick
does not fail.
-/

namespace Chip8

theorem exists_of_bind {ε α β : Type} {x : Except ε α} {f : α → Except ε β} {b : β}
    (h : x >>= f = .ok b) : ∃ a, x = .ok a ∧ f a = .ok b := by
  cases x with
  | error e => cases h
  | ok a => exact ⟨a, rfl, h⟩

namespace Clock

variable {τ : Type} [TimeScale τ] {c c' : Clock τ} {logger logger' : Logger τ}
  {now span elapsed : Quantity τ} {due due' : Due}

def terms (c : Clock τ) : Quantity τ × Option (Quantity τ) × Option (Quantity τ) :=
  (c.timerFrequency, c.catchUp, c.last)

structure ResetAt (c : Clock τ) (now : Quantity τ) : Prop where
  last : c.last = some now
  cycleCredit : c.cycleCredit = TimeScale.zero
  timerCredit : c.timerCredit = TimeScale.zero

def covered (c : Clock τ) (elapsed : Quantity τ) : Quantity τ :=
  match c.catchUp with
  | none => elapsed
  | some limit => if limit.lt elapsed then limit else elapsed

def timersIn (c : Clock τ) (span : Quantity τ) : Except Failure (Int × τ) := do
  let credit ← credited c.timerCredit span c.timerFrequency
  let ticks ← TimeScale.truncate credit
  let rest ← debited credit ticks
  return (ticks, rest)

def timersAt (c : Clock τ) (now : Quantity τ) : Except Failure (Int × τ) :=
  match c.last with
  | none => .ok (0, c.timerCredit)
  | some last => do
    let elapsed ← now.sub last
    c.timersIn (c.covered elapsed.atLeastZero)

/-! ## Ticks -/

omit [TimeScale τ] in
theorem terms_inj {frequency : Quantity τ} {limit last : Option (Quantity τ)}
    (h : c.terms = (frequency, limit, last)) :
    c.timerFrequency = frequency ∧ c.catchUp = limit ∧ c.last = last := by
  simpa [terms] using h

theorem terms_withdraw (c : Clock τ) : c.withdraw.1.terms = c.terms := by
  unfold withdraw
  split
  · split
    · rfl
    · dsimp only
      split <;> rfl
  · rfl
  · rfl

theorem terms_accrue (c : Clock τ) (span : Quantity τ) : (c.accrue span).1.terms = c.terms := by
  unfold accrue
  split
  · rfl
  · dsimp only
    split
    · rfl
    · exact terms_withdraw _

theorem terms_tickAfter (c : Clock τ) (logger : Logger τ) (now elapsed : Quantity τ) :
    (c.tickAfter logger now elapsed).clock.terms = c.terms := by
  unfold tickAfter
  split
  · rfl
  · exact terms_accrue c _
  · dsimp only
    split
    · rfl
    · exact terms_accrue _ _

theorem terms_tick (c : Clock τ) (logger : Logger τ) (now : Quantity τ) :
    ∃ last, (c.tick logger now).clock.terms = (c.timerFrequency, c.catchUp, last) := by
  unfold tick
  split
  · exact ⟨_, rfl⟩
  · split
    · exact ⟨_, rfl⟩
    · exact ⟨_, terms_tickAfter _ logger now _⟩

theorem terms_ages (h : c.Ages c') : ∃ last, c'.terms = (c.timerFrequency, c.catchUp, last) := by
  induction h with
  | start => exact ⟨_, rfl⟩
  | @tick c' _ logger now ih =>
    obtain ⟨last, before⟩ := ih
    obtain ⟨frequency, limit, -⟩ := terms_inj before
    obtain ⟨last', tick⟩ := c'.terms_tick logger now
    exact ⟨last', by rw [tick, frequency, limit]⟩
  | @reset c' _ now ih =>
    obtain ⟨last, before⟩ := ih
    obtain ⟨frequency, limit, -⟩ := terms_inj before
    exact ⟨some now, by rw [terms, reset, frequency, limit]⟩

theorem withdraw_ok (h : c.withdraw.2 = .ok due) :
    TimeScale.truncate c.timerCredit = .ok due.ticks ∧
      debited c.timerCredit due.ticks = .ok c.withdraw.1.timerCredit := by
  unfold withdraw at h ⊢
  split at h
  · next cycles ticks hc ht =>
    simp only [ht]
    cases hd : debited c.cycleCredit cycles with
    | error e => simp only [hd, reduceCtorEq] at h
    | ok cycleCredit =>
      simp only [hd] at h ⊢
      cases hd' : debited c.timerCredit ticks with
      | error e => simp only [hd', reduceCtorEq] at h
      | ok timerCredit =>
        simp only [hd', Except.ok.injEq] at h ⊢
        obtain rfl := h
        exact ⟨rfl, hd'⟩
  · cases h
  · cases h

theorem timersIn_of_accrue (h : (c.accrue span).2 = .ok due) :
    c.timersIn span = .ok (due.ticks, (c.accrue span).1.timerCredit) := by
  unfold accrue at h ⊢
  cases hc : credited c.cycleCredit span c.cpuFrequency with
  | error e => simp only [hc, reduceCtorEq] at h
  | ok cycleCredit =>
    simp only [hc] at h ⊢
    cases ht : credited c.timerCredit span c.timerFrequency with
    | error e => simp only [ht, reduceCtorEq] at h
    | ok timerCredit =>
      simp only [ht] at h ⊢
      obtain ⟨ticks, rest⟩ := withdraw_ok h
      simp only [timersIn, ht, ticks, rest, bind, Except.bind, pure, Except.pure]

theorem covered_of_grant {shortfall : Option (Shortfall τ)}
    (h : c.grant elapsed = .ok (span, shortfall)) : c.covered elapsed = span := by
  unfold grant at h
  unfold covered
  cases limited : c.catchUp with
  | none =>
    simp only [limited] at h
    cases h
    rfl
  | some limit =>
    simp only [limited] at h ⊢
    split at h
    · next cut =>
      rw [if_pos cut]
      split at h <;> cases h
      rfl
    · next whole =>
      rw [if_neg whole]
      cases h
      rfl

theorem timersIn_of_tickAfter (h : (c.tickAfter logger now elapsed).due = .ok due) :
    c.timersIn (c.covered elapsed) =
      .ok (due.ticks, (c.tickAfter logger now elapsed).clock.timerCredit) := by
  unfold tickAfter at h ⊢
  split at h
  · cases h
  · next span hg =>
    simp only [covered_of_grant hg]
    exact timersIn_of_accrue h
  · next span shortfall hg =>
    simp only [covered_of_grant hg]
    dsimp only at h ⊢
    split at h
    · cases h
    · next output written =>
      exact timersIn_of_accrue h

theorem timersAt_of_tick (h : (c.tick logger now).due = .ok due) :
    c.timersAt now = .ok (due.ticks, (c.tick logger now).clock.timerCredit) ∧
      (c.tick logger now).clock.terms = (c.timerFrequency, c.catchUp, some now) := by
  unfold tick at h ⊢
  unfold timersAt
  cases read : c.last with
  | none =>
    simp only [read] at h ⊢
    cases h
    exact ⟨rfl, rfl⟩
  | some last =>
    simp only [read] at h ⊢
    cases difference : now.sub last with
    | error e => simp only [difference, reduceCtorEq] at h
    | ok elapsed =>
      simp only [difference] at h ⊢
      exact ⟨timersIn_of_tickAfter h, terms_tickAfter _ logger now _⟩

/-! ## Two clocks -/

/-- Two clocks whose timers' accounts stand the same. -/
structure SameTimers (c c' : Clock τ) : Prop where
  terms : c'.terms = c.terms
  credit : c'.timerCredit = c.timerCredit

theorem SameTimers.timersAt (h : SameTimers c c') (now : Quantity τ) :
    c'.timersAt now = c.timersAt now := by
  obtain ⟨frequency, limit, last⟩ := terms_inj h.terms
  simp only [Clock.timersAt, timersIn, covered, frequency, limit, last, h.credit]

/-- Whatever becomes of the cycles, a tick of both finds the same due for the timers. -/
theorem SameTimers.tick (h : SameTimers c c') (hc : (c.tick logger now).due = .ok due)
    (hc' : (c'.tick logger' now).due = .ok due') :
    due'.ticks = due.ticks ∧
      SameTimers (c.tick logger now).clock (c'.tick logger' now).clock := by
  obtain ⟨found, terms⟩ := timersAt_of_tick hc
  obtain ⟨found', terms'⟩ := timersAt_of_tick hc'
  rw [h.timersAt, found] at found'
  obtain ⟨ticks, credit⟩ := Prod.mk.inj (Except.ok.inj found')
  obtain ⟨frequency, limit, -⟩ := terms_inj h.terms
  refine ⟨ticks.symm, ?_, credit.symm⟩
  rw [terms, terms', frequency, limit]

/-- Clocks that were made with one frequency of the timers and one limit are the same to the timers
once both are reset at one reading. -/
theorem sameTimers_of_resetAt {first first' : Clock τ} (ages : first.Ages c)
    (ages' : first'.Ages c') (frequency : first'.timerFrequency = first.timerFrequency)
    (limit : first'.catchUp = first.catchUp) (reset : c.ResetAt now) (reset' : c'.ResetAt now) :
    SameTimers c c' := by
  obtain ⟨last, terms⟩ := terms_ages ages
  obtain ⟨last', terms'⟩ := terms_ages ages'
  have read : last = some now := (terms_inj terms).2.2.symm.trans reset.last
  have read' : last' = some now := (terms_inj terms').2.2.symm.trans reset'.last
  refine ⟨?_, reset'.timerCredit.trans reset.timerCredit.symm⟩
  rw [terms, terms', frequency, limit, read, read']

/-! ## Signs -/

theorem Forward.isNegative_covered (h : c.Forward) (he : elapsed.isNegative = false) :
    (c.covered elapsed).isNegative = false := by
  unfold covered
  split
  · exact he
  · next limit limited =>
    split
    · exact h.catchUp limit limited
    · exact he

theorem Forward.ticks_nonneg [SignedScale τ] (h : c.Forward)
    (found : (c.tick logger now).due = .ok due) : 0 ≤ due.ticks := by
  have account := (timersAt_of_tick found).1
  unfold timersAt at account
  split at account
  · obtain ⟨none, -⟩ := Prod.mk.inj (Except.ok.inj account)
    exact none ▸ Int.le_refl 0
  · obtain ⟨elapsed, -, account⟩ := exists_of_bind account
    obtain ⟨credit, credited, account⟩ := exists_of_bind account
    obtain ⟨ticks, whole, account⟩ := exists_of_bind account
    obtain ⟨rest, -, account⟩ := exists_of_bind account
    obtain ⟨rfl, -⟩ := Prod.mk.inj (Except.ok.inj account)
    have span := h.isNegative_covered elapsed.isNegative_atLeastZero
    exact SignedScale.truncate
      (notNegative_credited h.timerCredit span h.timerFrequency credited) whole

end Clock

end Chip8
