import Chip8.Proofs.Clock.Conservation

/-! # Signs

Time does not run backwards for a clock. Its credits are not negative to begin with, and sums,
products and rests of what is not negative are not negative either. So a tick never finds less
than no cycles due, on any scale whose signs follow these rules.
-/

namespace Chip8

/-- The number is not below zero. What cannot be compared with zero is not either. -/
def TimeScale.NotNegative {τ : Type} [TimeScale τ] (x : τ) : Prop :=
  TimeScale.lt x TimeScale.zero = false

open TimeScale (NotNegative)

/-- The operations of the scale respect signs. -/
class SignedScale (τ : Type) [TimeScale τ] : Prop where
  zero : NotNegative (TimeScale.zero : τ)
  add {x y : τ} : NotNegative x → NotNegative y → NotNegative (x + y)
  mul {x y : τ} : NotNegative x → NotNegative y → NotNegative (x * y)
  of_not_le {x : τ} : TimeScale.le x TimeScale.zero = false → NotNegative x
  ofInt {n : Int} {x : τ} : 0 ≤ n → TimeScale.ofInt? n = some x → NotNegative x
  nonneg {n : Int} : TimeScale.exceeds n (TimeScale.zero : τ) = false → 0 ≤ n
  truncate {x : τ} {n : Int} : NotNegative x → TimeScale.truncate x = .ok n → 0 ≤ n
  /-- The integer part is not more than the number. -/
  rest {x y : τ} {n : Int} :
    NotNegative x → TimeScale.truncate x = .ok n → TimeScale.ofInt? n = some y →
      NotNegative (x - y)

theorem notNegative_iff {x : Rat} : NotNegative x ↔ 0 ≤ x :=
  decide_eq_false_iff_not.trans not_lt

instance : SignedScale Rat where
  zero := notNegative_iff.mpr (le_refl 0)
  add hx hy := notNegative_iff.mpr (add_nonneg (notNegative_iff.mp hx) (notNegative_iff.mp hy))
  mul hx hy := notNegative_iff.mpr (mul_nonneg (notNegative_iff.mp hx) (notNegative_iff.mp hy))
  of_not_le h := notNegative_iff.mpr (le_of_not_ge (decide_eq_false_iff_not.mp h))
  ofInt hn h := notNegative_iff.mpr (Option.some.inj h ▸ Int.cast_nonneg hn)
  nonneg h := Int.cast_nonneg_iff.mp (not_lt.mp (decide_eq_false_iff_not.mp h))
  truncate hx h := by
    rw [← Except.ok.inj h, Exact.truncate_of_nonneg (notNegative_iff.mp hx)]
    exact Int.floor_nonneg.mpr (notNegative_iff.mp hx)
  rest hx h hy := by
    rw [← Option.some.inj hy, ← Except.ok.inj h, Exact.truncate_of_nonneg (notNegative_iff.mp hx)]
    exact notNegative_iff.mpr (sub_nonneg.mpr (Int.floor_le _))

variable {τ : Type} [TimeScale τ] [SignedScale τ]

namespace Quantity

variable {p q r : Quantity τ}

theorem isNegative_of_isNotPositive (h : q.isNotPositive = false) : q.isNegative = false := by
  cases q with
  | whole n =>
    simp only [isNotPositive, isNegative, decide_eq_false_iff_not] at h ⊢
    omega
  | real x => exact SignedScale.of_not_le h

theorem notNegative_toReal (h : q.isNegative = false) {x : τ} (hx : q.toReal = .ok x) :
    NotNegative x := by
  cases q with
  | whole n =>
    have nonneg : 0 ≤ n := Int.not_lt.mp (decide_eq_false_iff_not.mp h)
    change TimeScale.ofInt n = .ok x at hx
    unfold TimeScale.ofInt at hx
    split at hx
    · next hn =>
      obtain rfl := Except.ok.inj hx
      exact SignedScale.ofInt nonneg hn
    · cases hx
  | real y =>
    obtain rfl := Except.ok.inj hx
    exact h

theorem isNegative_mul (hp : p.isNegative = false) (hq : q.isNegative = false)
    (h : p.mul q = .ok r) : r.isNegative = false := by
  unfold mul combine at h
  split at h
  · next a b =>
    obtain rfl := Except.ok.inj h
    simp only [isNegative, decide_eq_false_iff_not, Int.not_lt] at hp hq ⊢
    exact Int.mul_nonneg hp hq
  · split at h
    · next hx hy =>
      obtain rfl := Except.ok.inj h
      exact SignedScale.mul (notNegative_toReal hp hx) (notNegative_toReal hq hy)
    · cases h
    · cases h

theorem isNegative_atLeastZero (q : Quantity τ) : q.atLeastZero.isNegative = false := by
  unfold atLeastZero
  split
  · exact SignedScale.zero
  · next above =>
    rw [Bool.not_eq_true] at above
    cases q with
    | whole n => exact decide_eq_false (Int.not_lt.mpr (SignedScale.nonneg above))
    | real x => exact above

end Quantity

namespace Clock

/-- The clock has no negative frequency, limit or credit. -/
structure Forward (c : Clock τ) : Prop where
  cpuFrequency : c.cpuFrequency.isNegative = false
  timerFrequency : c.timerFrequency.isNegative = false
  catchUp : ∀ limit, c.catchUp = some limit → limit.isNegative = false
  cycleCredit : NotNegative c.cycleCredit
  timerCredit : NotNegative c.timerCredit

variable {c : Clock τ}

theorem notNegative_credited {credit more : τ} {span frequency : Quantity τ}
    (before : NotNegative credit) (hs : span.isNegative = false) (hf : frequency.isNegative = false)
    (h : credited credit span frequency = .ok more) : NotNegative more := by
  cases product : span.mul frequency with
  | error e => simp [credited, product, bind, Except.bind] at h
  | ok p =>
    cases scaled : p.toReal with
    | error e => simp [credited, product, scaled, bind, Except.bind] at h
    | ok x =>
      simp only [credited, product, scaled, bind, Except.bind, pure, Except.pure,
        Except.ok.injEq] at h
      subst h
      exact SignedScale.add before
        (Quantity.notNegative_toReal (Quantity.isNegative_mul hs hf product) scaled)

theorem notNegative_debited {credit less : τ} {whole : Int} (before : NotNegative credit)
    (taken : TimeScale.truncate credit = .ok whole) (h : debited credit whole = .ok less) :
    NotNegative less := by
  unfold debited TimeScale.ofInt at h
  cases hw : (TimeScale.ofInt? whole : Option τ) with
  | none => simp [hw, bind, Except.bind] at h
  | some x =>
    simp only [hw, bind, Except.bind, pure, Except.pure, Except.ok.injEq] at h
    subst h
    exact SignedScale.rest before taken hw

/-- The clock goes on forwards, and no cycles less than none are due. -/
structure Forwards (x : Clock τ × Except Failure Due) : Prop where
  clock : x.1.Forward
  cycles : ∀ due, x.2 = .ok due → 0 ≤ due.cycles

theorem Forward.withdraw (h : c.Forward) : Forwards c.withdraw := by
  unfold Clock.withdraw
  split
  · next cycles ticks hc ht =>
    split
    · exact ⟨h, nofun⟩
    · next credit hd =>
      have less := notNegative_debited h.cycleCredit hc hd
      dsimp only
      split
      · exact ⟨{ h with cycleCredit := less }, nofun⟩
      · next credit' hd' =>
        have less' := notNegative_debited h.timerCredit ht hd'
        refine ⟨{ h with cycleCredit := less, timerCredit := less' }, ?_⟩
        rintro due ⟨⟩
        exact SignedScale.truncate h.cycleCredit hc
  · exact ⟨h, nofun⟩
  · exact ⟨h, nofun⟩

theorem Forward.accrue (h : c.Forward) {span : Quantity τ} (hs : span.isNegative = false) :
    Forwards (c.accrue span) := by
  unfold Clock.accrue
  split
  · exact ⟨h, nofun⟩
  · next credit hc =>
    have more := notNegative_credited h.cycleCredit hs h.cpuFrequency hc
    dsimp only
    split
    · exact ⟨{ h with cycleCredit := more }, nofun⟩
    · next credit' hc' =>
      have more' := notNegative_credited h.timerCredit hs h.timerFrequency hc'
      exact Forward.withdraw { h with cycleCredit := more, timerCredit := more' }

theorem Forward.tickAfter (h : c.Forward) (logger : Logger τ) (now : Quantity τ)
    {elapsed : Quantity τ} (he : elapsed.isNegative = false) :
    Forwards ((c.tickAfter logger now elapsed).clock, (c.tickAfter logger now elapsed).due) := by
  have granted {span : Quantity τ} {shortfall : Option (Shortfall τ)}
      (hg : c.grant elapsed = .ok (span, shortfall)) : span.isNegative = false := by
    unfold grant at hg
    split at hg
    · cases hg
      exact he
    · next limit hl =>
      split at hg
      · split at hg
        · cases hg
          exact h.catchUp _ hl
        · cases hg
      · cases hg
        exact he
  unfold Clock.tickAfter
  split
  · exact ⟨h, nofun⟩
  · next hg => exact h.accrue (granted hg)
  · next shortfall hg =>
    have dropped : Forward { c with dropped := c.dropped + shortfall.dropped } := { h with }
    dsimp only
    split
    · exact ⟨dropped, nofun⟩
    · exact dropped.accrue (granted hg)

theorem Forward.tick (h : c.Forward) (logger : Logger τ) (now : Quantity τ) :
    Forwards ((c.tick logger now).clock, (c.tick logger now).due) := by
  unfold Clock.tick
  split
  · refine ⟨{ h with }, ?_⟩
    rintro due ⟨⟩
    exact le_refl 0
  · split
    · exact ⟨h, nofun⟩
    · have started : Forward { c with last := some now } := { h with }
      exact started.tickAfter logger now (Quantity.isNegative_atLeastZero _)

/-- What has become of a clock, with ticks and resets. -/
inductive Ages (first : Clock τ) : Clock τ → Prop where
  | start : Ages first first
  | tick {c : Clock τ} (h : Ages first c) (logger : Logger τ) (now : Quantity τ) :
      Ages first (c.tick logger now).clock
  | reset {c : Clock τ} (h : Ages first c) (now : Quantity τ) : Ages first (c.reset now)

omit [SignedScale τ] in
theorem Ages.trans {c₁ c₂ : Clock τ} (h : c.Ages c₁) (h' : c₁.Ages c₂) : c.Ages c₂ := by
  induction h' with
  | start => exact h
  | tick _ logger now ih => exact ih.tick logger now
  | reset _ now ih => exact ih.reset now

theorem Forward.ages (h : c.Forward) {c' : Clock τ} (ages : c.Ages c') : c'.Forward := by
  induction ages with
  | start => exact h
  | tick _ logger now ih => exact (ih.tick logger now).clock
  | reset _ now ih =>
    exact { ih with cycleCredit := SignedScale.zero, timerCredit := SignedScale.zero }

theorem forward_create {config : Config τ} (valid : config.violation? = none) :
    (create config.cpuFrequency config.timerFrequency config.catchUp).Forward := by
  unfold Config.violation? at valid
  split at valid
  · cases valid
  · next cpu =>
    split at valid
    · cases valid
    · next timer =>
      split at valid
      · cases valid
      · rw [Bool.not_eq_true] at cpu timer
        refine ⟨Quantity.isNegative_of_isNotPositive cpu,
          Quantity.isNegative_of_isNotPositive timer, fun limit hl => ?_,
          SignedScale.zero, SignedScale.zero⟩
        change config.catchUp = some limit at hl
        rw [hl] at valid
        dsimp only at valid
        split at valid
        · cases valid
        · next positive => exact Quantity.isNegative_of_isNotPositive (by simpa using positive)

end Clock

end Chip8
