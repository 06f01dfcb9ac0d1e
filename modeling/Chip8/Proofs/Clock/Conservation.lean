import Mathlib.Data.Rat.Floor
import Mathlib.Tactic.Linarith
import Chip8.Proofs.Session.Tracing

/-! # Conservation of time

Without rounding a clock loses nothing. What it has granted is the floor of frequency times time,
however the time is divided among ticks, and the rest of it is the credit. The catch-up limit
drops whole cycles and counts them, so that a tick that is cut loses less than one.
-/

namespace Chip8

def Quantity.value : Quantity Rat → Rat
  | whole n => n
  | real x => x

namespace Quantity

variable (p q : Quantity Rat)

theorem toReal_eq : p.toReal = .ok p.value := by
  cases p <;> rfl

theorem exists_sub : ∃ r, p.sub q = .ok r ∧ r.value = p.value - q.value := by
  cases p <;> cases q <;> refine ⟨_, rfl, ?_⟩
  case whole.whole a b => exact Int.cast_sub a b
  all_goals rfl

theorem exists_mul : ∃ r, p.mul q = .ok r ∧ r.value = p.value * q.value := by
  cases p <;> cases q <;> refine ⟨_, rfl, ?_⟩
  case whole.whole a b => exact Int.cast_mul a b
  all_goals rfl

theorem lt_iff : p.lt q = true ↔ p.value < q.value := by
  cases p <;> cases q
  case whole.whole a b => simp [lt, value]
  case whole.real a y => exact decide_eq_true_iff
  case real.whole x b =>
    show decide (((-b : Int) : Rat) < 0 - x) = true ↔ x < b
    rw [decide_eq_true_iff, Int.cast_neg, zero_sub, neg_lt_neg_iff]
  case real.real x y => exact decide_eq_true_iff

theorem value_atLeastZero : q.atLeastZero.value = max q.value 0 := by
  have zero : (real TimeScale.zero : Quantity Rat).value = 0 := rfl
  unfold atLeastZero
  split
  · next negative =>
    rw [lt_iff, zero] at negative
    exact (max_eq_right negative.le).symm
  · next positive =>
    rw [lt_iff, zero, not_lt] at positive
    exact (max_eq_left positive).symm

theorem truncate_eq : q.truncate = .ok (Exact.truncate q.value) := by
  cases q with
  | whole n => simp [truncate, value, Exact.truncate]
  | real x => rfl

end Quantity

theorem Exact.truncate_of_nonneg {q : Rat} (h : 0 ≤ q) : truncate q = ⌊q⌋ := by
  rw [truncate, Rat.floor_def', Int.tdiv_eq_ediv_of_nonneg (Rat.num_nonneg.mpr h)]

namespace Clock

variable {τ : Type} [TimeScale τ]

/-- Ticks at a list of readings, none of which fails, and what they grant. -/
inductive Ticks (logger : Logger τ) : Clock τ → List (Quantity τ) → List Due → Clock τ → Prop where
  | nil (c : Clock τ) : Ticks logger c [] [] c
  | cons {c c' : Clock τ} {now : Quantity τ} {rest : List (Quantity τ)} {due : Due}
      {dues : List Due} (first : (c.tick logger now).due = .ok due)
      (others : Ticks logger (c.tick logger now).clock rest dues c') :
      Ticks logger c (now :: rest) (due :: dues) c'

/-- A clock that was started at the reading `start`, by its first tick or by a reset. -/
inductive Started (logger : Logger τ) (start : Quantity τ) : Clock τ → Prop where
  | first (cpuFrequency timerFrequency : Quantity τ) (catchUp : Option (Quantity τ)) :
      Started logger start ((create cpuFrequency timerFrequency catchUp).tick logger start).clock
  | reset (c : Clock τ) : Started logger start (c.reset start)

variable {logger : Logger Rat} {c c' : Clock Rat}

def cuts (c : Clock Rat) (span : Rat) : Bool := c.catchUp.any fun limit => limit.value < span

def granted (c : Clock Rat) (span : Rat) : Rat :=
  c.catchUp.elim span fun limit => min span limit.value

def lost (c : Clock Rat) (span : Rat) : Int :=
  if c.cuts span then ⌊(span - c.granted span) * c.cpuFrequency.value⌋ else 0

theorem granted_of_cuts {span : Rat} {limit : Quantity Rat} (h : c.catchUp = some limit)
    (cut : limit.value < span) : c.granted span = limit.value := by
  simp [granted, h, cut.le]

theorem granted_of_not_cuts {span : Rat} (h : c.cuts span = false) : c.granted span = span := by
  unfold granted
  unfold cuts at h
  cases hl : c.catchUp with
  | none => rfl
  | some limit => simpa [hl] using h

theorem credited_eq (credit : Rat) (span frequency : Quantity Rat) :
    credited credit span frequency = .ok (credit + span.value * frequency.value) := by
  obtain ⟨product, hp, value⟩ := span.exists_mul frequency
  simp only [credited, hp, bind, Except.bind, product.toReal_eq, value, pure, Except.pure]

theorem accrue_eq (span : Quantity Rat) :
    c.accrue span =
      let cycleCredit := c.cycleCredit + span.value * c.cpuFrequency.value
      let timerCredit := c.timerCredit + span.value * c.timerFrequency.value
      ({ c with
          cycleCredit := cycleCredit - Exact.truncate cycleCredit
          timerCredit := timerCredit - Exact.truncate timerCredit },
        .ok ⟨Exact.truncate cycleCredit, Exact.truncate timerCredit⟩) := by
  simp only [accrue, credited_eq]
  rfl

theorem cyclesBeyond_eq (limit elapsed : Quantity Rat) :
    c.cyclesBeyond limit elapsed =
      .ok (Exact.truncate ((elapsed.value - limit.value) * c.cpuFrequency.value)) := by
  obtain ⟨beyond, hb, span⟩ := elapsed.exists_sub limit
  obtain ⟨cycles, hc, product⟩ := beyond.exists_mul c.cpuFrequency
  simp only [cyclesBeyond, hb, hc, bind, Except.bind, cycles.truncate_eq, product, span]

theorem exists_grant (cpu : 0 < c.cpuFrequency.value) (elapsed : Quantity Rat) :
    ∃ span shortfall, c.grant elapsed = .ok (span, shortfall) ∧
      span.value = c.granted elapsed.value ∧
      shortfall.elim 0 Shortfall.dropped = c.lost elapsed.value := by
  cases hl : c.catchUp with
  | none =>
    exact ⟨elapsed, none, by rw [grant, hl], by simp [granted, hl], by simp [lost, cuts, hl]⟩
  | some limit =>
    by_cases cut : limit.value < elapsed.value
    · have rest : 0 ≤ (elapsed.value - limit.value) * c.cpuFrequency.value :=
        mul_nonneg (sub_nonneg.mpr cut.le) cpu.le
      have below : limit.lt elapsed = true := (limit.lt_iff elapsed).mpr cut
      have span := granted_of_cuts hl cut
      let dropped := Exact.truncate ((elapsed.value - limit.value) * c.cpuFrequency.value)
      refine ⟨limit, some { covered := elapsed, limit, dropped }, ?_, span.symm, ?_⟩
      · rw [grant, hl]
        simp only [below, if_true, cyclesBeyond_eq]
        rfl
      · have cuts : c.cuts elapsed.value = true := by simpa [cuts, hl] using cut
        rw [lost, if_pos cuts, span]
        exact Exact.truncate_of_nonneg rest
    · have above : ¬limit.lt elapsed = true := mt (limit.lt_iff elapsed).mp cut
      have whole : c.cuts elapsed.value = false := by simpa [cuts, hl] using cut
      refine ⟨elapsed, none, ?_, (granted_of_not_cuts whole).symm, by simp [lost, whole]⟩
      rw [grant, hl]
      simp only [above]
      rfl

theorem exists_warning (logger : Logger Rat) (now : Quantity Rat) (shortfall : Shortfall Rat) :
    ∃ output, (shortfall.message >>= logger.write now .warning) = .ok output := by
  have stamp := Logger.stamp_of_measurableFrom (l := logger)
    (Quantity.measurableFrom_rat logger.start now)
  obtain ⟨message, hm⟩ : ∃ message, shortfall.message = .ok message := by
    simp [Shortfall.message, Quantity.fixed, Quantity.toReal_eq, bind, Except.bind, pure,
      Except.pure]
  rw [hm]
  exact Logger.exists_write stamp .warning message

/-- A clock with settings in their ranges and with less than one cycle and less than one timer
tick to its credit. -/
structure Sound (c : Clock Rat) : Prop where
  cpu : 0 < c.cpuFrequency.value
  timer : 0 < c.timerFrequency.value
  limit : ∀ limit, c.catchUp = some limit → 0 < limit.value
  cycleCredit : 0 ≤ c.cycleCredit ∧ c.cycleCredit < 1
  timerCredit : 0 ≤ c.timerCredit ∧ c.timerCredit < 1

theorem Sound.granted_nonneg (h : c.Sound) {span : Rat} (hs : 0 ≤ span) : 0 ≤ c.granted span := by
  unfold granted
  cases hl : c.catchUp with
  | none => exact hs
  | some limit => exact le_min hs (h.limit limit hl).le

/-- The clock `c'` is what `c` becomes when a tick grants a span, counts `lost` cycles as dropped
and finds `due`. -/
structure Grants (c : Clock Rat) (span : Rat) (lost : Int) (due : Due) (c' : Clock Rat) : Prop where
  sound : c'.Sound
  settings : c'.cpuFrequency = c.cpuFrequency ∧ c'.timerFrequency = c.timerFrequency ∧
    c'.catchUp = c.catchUp
  nonneg : 0 ≤ due.cycles ∧ 0 ≤ due.ticks
  cycles : due.cycles + c'.cycleCredit = c.cycleCredit + c.cpuFrequency.value * span
  ticks : due.ticks + c'.timerCredit = c.timerCredit + c.timerFrequency.value * span
  dropped : c'.dropped = c.dropped + lost

theorem withdrawn_bounds {credit : Rat} (h : 0 ≤ credit) :
    0 ≤ Exact.truncate credit ∧
      0 ≤ credit - Exact.truncate credit ∧ credit - Exact.truncate credit < 1 := by
  rw [Exact.truncate_of_nonneg h]
  have lower := Int.floor_le credit
  have upper := Int.lt_floor_add_one credit
  exact ⟨Int.floor_nonneg.mpr h, by linarith, by linarith⟩

theorem exists_accrue (h : c.Sound) {span : Quantity Rat} (hs : 0 ≤ span.value) :
    ∃ due, (c.accrue span).2 = .ok due ∧ c.Grants span.value 0 due (c.accrue span).1 ∧
      (c.accrue span).1.last = c.last := by
  have more : 0 ≤ span.value * c.cpuFrequency.value := mul_nonneg hs h.cpu.le
  have cycles := withdrawn_bounds (add_nonneg h.cycleCredit.1 more)
  have further : 0 ≤ span.value * c.timerFrequency.value := mul_nonneg hs h.timer.le
  have ticks := withdrawn_bounds (add_nonneg h.timerCredit.1 further)
  rw [accrue_eq]
  refine ⟨_, rfl, ⟨⟨h.cpu, h.timer, h.limit, cycles.2, ticks.2⟩, ⟨rfl, rfl, rfl⟩,
    ⟨cycles.1, ticks.1⟩, ?_, ?_, (add_zero c.dropped).symm⟩, rfl⟩
  · rw [add_sub_cancel, mul_comm]
  · rw [add_sub_cancel, mul_comm]

theorem exists_tickAfter (h : c.Sound) (logger : Logger Rat) (now elapsed : Quantity Rat)
    (hs : 0 ≤ elapsed.value) :
    ∃ due, (c.tickAfter logger now elapsed).due = .ok due ∧
      c.Grants (c.granted elapsed.value) (c.lost elapsed.value) due
        (c.tickAfter logger now elapsed).clock ∧
      (c.tickAfter logger now elapsed).clock.last = c.last := by
  obtain ⟨span, shortfall, hg, value, lost⟩ := c.exists_grant h.cpu elapsed
  have positive : 0 ≤ span.value := value ▸ h.granted_nonneg hs
  rw [← value, ← lost]
  unfold tickAfter
  rw [hg]
  cases shortfall with
  | none => exact exists_accrue h positive
  | some shortfall =>
    obtain ⟨output, written⟩ := exists_warning logger now shortfall
    simp only [written]
    -- The dropped cycles are counted first, and the credits do not depend on the count.
    let counted := { c with dropped := c.dropped + shortfall.dropped }
    have sound : counted.Sound := ⟨h.cpu, h.timer, h.limit, h.cycleCredit, h.timerCredit⟩
    obtain ⟨due, hd, grants, kept⟩ := exists_accrue sound positive
    exact ⟨due, hd, { grants with dropped := grants.dropped.trans (add_zero _) }, kept⟩

def elapsed (last now : Quantity Rat) : Rat := max (now.value - last.value) 0

theorem elapsed_nonneg (last now : Quantity Rat) : 0 ≤ elapsed last now := le_max_right _ _

theorem exists_tick (h : c.Sound) (logger : Logger Rat) {last : Quantity Rat}
    (hl : c.last = some last) (now : Quantity Rat) :
    ∃ due, (c.tick logger now).due = .ok due ∧
      c.Grants (c.granted (elapsed last now)) (c.lost (elapsed last now)) due
        (c.tick logger now).clock ∧
      (c.tick logger now).clock.last = some now := by
  obtain ⟨span, difference, value⟩ := now.exists_sub last
  have covered : span.atLeastZero.value = elapsed last now := by
    rw [Quantity.value_atLeastZero, value, elapsed]
  let moved := { c with last := some now }
  have sound : moved.Sound := ⟨h.cpu, h.timer, h.limit, h.cycleCredit, h.timerCredit⟩
  obtain ⟨due, hd, grants, kept⟩ :=
    exists_tickAfter sound logger now span.atLeastZero (covered ▸ elapsed_nonneg last now)
  have ticked : c.tick logger now = moved.tickAfter logger now span.atLeastZero := by
    rw [tick, hl]
    simp only [difference, moved]
  rw [covered] at grants
  rw [ticked]
  exact ⟨due, hd, { grants with }, kept⟩

def spans (last : Quantity Rat) : List (Quantity Rat) → List Rat
  | [] => []
  | now :: rest => elapsed last now :: spans now rest

def total (dues : List Due) : Due where
  cycles := (dues.map Due.cycles).sum
  ticks := (dues.map Due.ticks).sum

namespace Grants

variable {span : Rat} {lost : Int} {due : Due}

theorem granted_eq (h : c.Grants span lost due c') : c'.granted = c.granted := by
  funext span
  rw [granted, granted, h.settings.2.2]

theorem cuts_eq (h : c.Grants span lost due c') : c'.cuts = c.cuts := by
  funext span
  rw [cuts, cuts, h.settings.2.2]

theorem lost_eq (h : c.Grants span lost due c') : c'.lost = c.lost := by
  funext span
  rw [Clock.lost, Clock.lost, h.cuts_eq, h.granted_eq, h.settings.1]

theorem nil (h : c.Sound) : c.Grants 0 0 (total []) c where
  sound := h
  settings := ⟨rfl, rfl, rfl⟩
  nonneg := ⟨le_rfl, le_rfl⟩
  cycles := by simp [total]
  ticks := by simp [total]
  dropped := by simp

theorem cons {c'' : Clock Rat} {spans : Rat} {rest : Int} {dues : List Due}
    (first : c.Grants span lost due c') (others : c'.Grants spans rest (total dues) c'') :
    c.Grants (span + spans) (lost + rest) (total (due :: dues)) c'' := by
  obtain ⟨cpu, timer, limit⟩ := first.settings
  have cycles := others.cycles
  have ticks := others.ticks
  rw [cpu] at cycles
  rw [timer] at ticks
  refine ⟨others.sound, ?_, ?_, ?_, ?_, ?_⟩
  · rw [← cpu, ← timer, ← limit]
    exact others.settings
  · exact ⟨add_nonneg first.nonneg.1 others.nonneg.1, add_nonneg first.nonneg.2 others.nonneg.2⟩
  · have sum : (total (due :: dues)).cycles = due.cycles + (total dues).cycles := rfl
    rw [sum, Int.cast_add]
    linarith [first.cycles]
  · have sum : (total (due :: dues)).ticks = due.ticks + (total dues).ticks := rfl
    rw [sum, Int.cast_add]
    linarith [first.ticks]
  · rw [others.dropped, first.dropped, add_assoc]

end Grants

theorem exists_ticks (logger : Logger Rat) (readings : List (Quantity Rat)) (h : c.Sound)
    {last : Quantity Rat} (hl : c.last = some last) :
    ∃ dues c', Ticks logger c readings dues c' ∧
      (∀ due ∈ dues, 0 ≤ due.cycles ∧ 0 ≤ due.ticks) ∧
      c.Grants ((spans last readings).map c.granted).sum ((spans last readings).map c.lost).sum
        (total dues) c' := by
  induction readings generalizing c last with
  | nil => exact ⟨[], c, .nil c, by simp, .nil h⟩
  | cons now rest ih =>
    obtain ⟨due, hd, grants, moved⟩ := exists_tick h logger hl now
    obtain ⟨dues, c', ticks, nonneg, others⟩ := ih grants.sound moved
    rw [grants.granted_eq, grants.lost_eq] at others
    exact ⟨due :: dues, c', .cons hd ticks, List.forall_mem_cons.mpr ⟨grants.nonneg, nonneg⟩,
      grants.cons others⟩

/-- The cycles dropped are the whole part of those that were not granted. -/
theorem lost_bounds (c : Clock Rat) (span : Rat) :
    (c.lost span : Rat) ≤ c.cpuFrequency.value * (span - c.granted span) ∧
      c.cpuFrequency.value * (span - c.granted span) ≤
        c.lost span + if c.cuts span then 1 else 0 := by
  rw [mul_comm]
  cases cut : c.cuts span with
  | false => simp [lost, cut, granted_of_not_cuts cut]
  | true =>
    simp only [lost, cut, if_true]
    exact ⟨Int.floor_le _, (Int.lt_floor_add_one _).le⟩

theorem sum_lost_bounds (c : Clock Rat) (spans : List Rat) :
    ((spans.map c.lost).sum : Rat) ≤
        c.cpuFrequency.value * (spans.sum - (spans.map c.granted).sum) ∧
      c.cpuFrequency.value * (spans.sum - (spans.map c.granted).sum) ≤
        (spans.map c.lost).sum + spans.countP c.cuts := by
  induction spans with
  | nil => simp
  | cons span rest ih =>
    have first := c.lost_bounds span
    have split : c.cpuFrequency.value *
          ((span :: rest).sum - ((span :: rest).map c.granted).sum) =
        c.cpuFrequency.value * (span - c.granted span) +
          c.cpuFrequency.value * (rest.sum - (rest.map c.granted).sum) := by
      simp only [List.map_cons, List.sum_cons]
      ring
    rw [split, List.map_cons, List.sum_cons, List.countP_cons, Int.cast_add, Nat.cast_add,
      Nat.cast_ite, Nat.cast_one, Nat.cast_zero]
    constructor <;> linarith

namespace Started

variable {start : Quantity Rat}

theorem last_eq (h : Started logger start c) : c.last = some start := by
  cases h <;> rfl

theorem credits_eq (h : Started logger start c) : c.cycleCredit = 0 ∧ c.timerCredit = 0 := by
  cases h <;> exact ⟨rfl, rfl⟩

theorem sound (h : Started logger start c) (cpu : 0 < c.cpuFrequency.value)
    (timer : 0 < c.timerFrequency.value)
    (limit : ∀ limit, c.catchUp = some limit → 0 < limit.value) : c.Sound where
  cpu := cpu
  timer := timer
  limit := limit
  cycleCredit := by simp [h.credits_eq]
  timerCredit := by simp [h.credits_eq]

end Started

/-- A clock grants exactly the floor of frequency times the time that the limit leaves, in cycles
and in timer ticks, and what is neither granted nor dropped is less than one cycle for the credit
and for each cut. -/
theorem exists_ticks_of_started (h : Started logger start c)
    (cpu : 0 < c.cpuFrequency.value) (timer : 0 < c.timerFrequency.value)
    (limit : ∀ limit, c.catchUp = some limit → 0 < limit.value)
    (readings : List (Quantity Rat)) :
    ∃ dues c', Ticks logger c readings dues c' ∧
      (∀ due ∈ dues, 0 ≤ due.cycles ∧ 0 ≤ due.ticks) ∧
      (dues.map Due.cycles).sum =
        ⌊c.cpuFrequency.value * ((spans start readings).map c.granted).sum⌋ ∧
      (dues.map Due.ticks).sum =
        ⌊c.timerFrequency.value * ((spans start readings).map c.granted).sum⌋ ∧
      c'.cycleCredit ∈ Set.Ico 0 1 ∧ c'.timerCredit ∈ Set.Ico 0 1 ∧
      c.cpuFrequency.value * (spans start readings).sum -
          ((dues.map Due.cycles).sum + (c'.dropped - c.dropped)) ∈
        Set.Ico (0 : Rat) ((spans start readings).countP c.cuts + 1) := by
  obtain ⟨dues, c', ticks, nonneg, grants⟩ :=
    exists_ticks logger readings (h.sound cpu timer limit) h.last_eq
  have bounds := c.sum_lost_bounds (spans start readings)
  have cycles := grants.cycles
  have timerTicks := grants.ticks
  have dropped : (c'.dropped : Rat) - c.dropped = ((spans start readings).map c.lost).sum := by
    rw [grants.dropped, Int.cast_add, add_sub_cancel_left]
  obtain ⟨low, high⟩ := grants.sound.cycleCredit
  obtain ⟨timerLow, timerHigh⟩ := grants.sound.timerCredit
  rw [h.credits_eq.1, zero_add] at cycles
  rw [h.credits_eq.2, zero_add] at timerTicks
  refine ⟨dues, c', ticks, nonneg, ?_, ?_, ⟨low, high⟩, ⟨timerLow, timerHigh⟩, ?_⟩
  · rw [← cycles, Int.floor_intCast_add, Int.floor_eq_zero_iff.mpr ⟨low, high⟩, add_zero]
    rfl
  · rw [← timerTicks, Int.floor_intCast_add, Int.floor_eq_zero_iff.mpr ⟨timerLow, timerHigh⟩,
      add_zero]
    rfl
  · have sum : (total dues).cycles = (dues.map Due.cycles).sum := rfl
    rw [sum] at cycles
    rw [dropped]
    constructor <;> linarith

/-- A clock that is read a tick later, then back in time, and then past its limit. -/
theorem exists_ticks_of_started_back_and_cut :
    let logger : Logger Rat := { name := "clock", level := .warning, start := .whole 7 }
    let catchUp : Quantity Rat := .real (1 / 4)
    let clock := ((create (.whole 500) (.whole 60) (some catchUp)).tick logger (.whole 7)).clock
    let readings : List (Quantity Rat) := [.real (421 / 60), .real (27 / 4), .whole 8]
    ∃ dues c', Ticks logger clock readings dues c' ∧
      (dues.map Due.cycles).sum = 133 ∧ (dues.map Due.ticks).sum = 16 := by
  intro logger catchUp clock readings
  have cpu : 0 < clock.cpuFrequency.value := by decide +kernel
  have timer : 0 < clock.timerFrequency.value := by decide +kernel
  have limit : ∀ limit, clock.catchUp = some limit → 0 < limit.value := by
    rintro limit ⟨⟩
    decide +kernel
  obtain ⟨dues, c', ticks, -, cycles, timerTicks, -⟩ :=
    exists_ticks_of_started (.first _ _ _) cpu timer limit readings
  have granted : ((spans (.whole 7) readings).map clock.granted).sum = 4 / 15 := by
    decide +kernel
  rw [granted] at cycles timerTicks
  refine ⟨dues, c', ticks, cycles.trans ?_, timerTicks.trans ?_⟩
  · decide +kernel
  · decide +kernel

end Clock

end Chip8
