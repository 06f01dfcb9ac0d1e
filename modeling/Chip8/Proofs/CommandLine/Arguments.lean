import Mathlib.Data.List.TakeWhile
import Mathlib.Tactic.Ring
import Chip8.CommandLine.Options
import Chip8.Proofs.Clock.Timers

/-! # Reading the command line

An integer is read as it was written, unless it has too many digits, and none that is read has too
many. So a command line sets the numbers of the options that it gives, or is refused.
-/

namespace Chip8

/-! ## Integers in text -/

namespace Text

variable {c : Char} {s : List Char} {n : Nat}

theorem isWritable_iff (n : Int) : isWritable n = true ↔ n.natAbs < 10 ^ maxDigits := by
  unfold isWritable
  generalize maxDigits = most
  exact decide_eq_true_iff

theorem digitValue?_of_isDigit (h : c.isDigit) : digitValue? c = some (c.toNat - '0'.toNat) := by
  have bounds : 0x30 ≤ c.toNat ∧ c.toNat < 0x30 + 10 := by
    simp only [Char.isDigit, Bool.and_eq_true, decide_eq_true_eq] at h
    exact ⟨h.1, Nat.lt_succ_of_le h.2⟩
  have first : digitZeros.find? (fun start => start ≤ c.toNat && c.toNat < start + 10) = some 0x30 :=
    List.find?_cons_of_pos (by simpa using bounds)
  rw [digitValue?, first]
  rfl

theorem lt_of_digitValue? {d : Nat} (h : digitValue? c = some d) : d < 10 := by
  obtain ⟨start, found, rfl⟩ := Option.map_eq_some_iff.mp h
  have inside := List.find?_some found
  simp only [Bool.and_eq_true, decide_eq_true_eq] at inside
  omega

theorem digitValues_of_isDigit (digits : ∀ c ∈ s, c.isDigit) (after : Bool)
    (some_digit : after = true ∨ s ≠ []) :
    digitValues after s = some (s.map fun c => c.toNat - '0'.toNat) := by
  induction s generalizing after with
  | nil => simpa [digitValues] using some_digit
  | cons c rest ih =>
    obtain ⟨digit, others⟩ := List.forall_mem_cons.mp digits
    have later := ih others true (.inl rfl)
    have no_underscore : c ≠ '_' := by
      rintro rfl
      exact absurd digit (by decide)
    rw [digitValues, if_neg no_underscore, digitValue?_of_isDigit digit]
    simp [later]

theorem natural?_toDigits (n : Nat) :
    natural? (Nat.toDigits 10 n) = if isWritable n then some n else none := by
  have digits : ∀ c ∈ Nat.toDigits 10 n, c.isDigit :=
    fun c h => Nat.isDigit_of_mem_toDigits (by decide) (by decide) h
  have values := digitValues_of_isDigit digits false (.inr Nat.toDigits_ne_nil)
  have short : isWritable n = true ↔ (Nat.toDigits 10 n).length ≤ maxDigits :=
    (isWritable_iff n).trans (Nat.length_toDigits_le_iff (by decide) (by decide)).symm
  simp only [natural?, values, bind, Option.bind, List.length_map, List.foldl_map,
    ← Nat.ofDigitChars_eq_foldl, Nat.ofDigitChars_ten_toDigits, short]
  by_cases h : (Nat.toDigits 10 n).length ≤ maxDigits
  · rw [if_neg (Nat.not_lt.mpr h), if_pos h]
  · rw [if_pos (Nat.lt_of_not_le h), if_neg h]

theorem lt_of_digitValues {after : Bool} {digits : List Nat} (h : digitValues after s = some digits) :
    ∀ d ∈ digits, d < 10 := by
  induction s generalizing after digits with
  | nil =>
    rw [digitValues] at h
    split at h <;> cases h
    nofun
  | cons c rest ih =>
    rw [digitValues] at h
    split at h
    · split at h
      · exact ih h
      · cases h
    · split at h
      · next value =>
        obtain ⟨later, read, rfl⟩ := Option.map_eq_some_iff.mp h
        exact List.forall_mem_cons.mpr ⟨lt_of_digitValue? value, ih read⟩
      · cases h

theorem foldl_lt {digits : List Nat} (h : ∀ d ∈ digits, d < 10) (start : Nat) :
    digits.foldl (fun n d => 10 * n + d) start < (start + 1) * 10 ^ digits.length := by
  induction digits generalizing start with
  | nil => simp
  | cons d rest ih =>
    obtain ⟨first, others⟩ := List.forall_mem_cons.mp h
    calc rest.foldl (fun n d => 10 * n + d) (10 * start + d)
        < (10 * start + d + 1) * 10 ^ rest.length := ih others _
      _ ≤ (start + 1) * 10 * 10 ^ rest.length := Nat.mul_le_mul_right _ (by omega)
      _ = (start + 1) * 10 ^ (rest.length + 1) := by rw [Nat.pow_succ']; ring

theorem natural?_lt (h : natural? s = some n) : n < 10 ^ maxDigits := by
  obtain ⟨digits, read, h⟩ := Option.bind_eq_some_iff.mp h
  split at h
  · cases h
  · next short =>
    obtain rfl := Option.some.inj h
    calc digits.foldl (fun n d => 10 * n + d) 0
        < (0 + 1) * 10 ^ digits.length := foldl_lt (lt_of_digitValues read) 0
      _ ≤ 10 ^ maxDigits := by
        rw [Nat.zero_add, Nat.one_mul]
        exact Nat.pow_le_pow_right (by decide) (Nat.le_of_not_lt short)

theorem isWritable_of_integer? {text : String} {n : Int} (h : integer? text = some n) :
    isWritable n = true := by
  rw [isWritable_iff]
  unfold integer? at h
  split at h
  all_goals
    obtain ⟨k, read, rfl⟩ := Option.map_eq_some_iff.mp h
    obtain ⟨m, digits, same⟩ := Option.bind_eq_some_iff.mp read
    obtain rfl := Option.some.inj same
    exact lt_of_eq_of_lt (by simp) (natural?_lt digits)

theorem isBlank_of_isDigit (h : c.isDigit) : isBlank c = false := by
  have bounds : 0x30 ≤ c.toNat ∧ c.toNat ≤ 0x39 := by
    simp only [Char.isDigit, Bool.and_eq_true, decide_eq_true_eq] at h
    exact h
  simp only [isBlank, Bool.or_eq_false_iff, Bool.and_eq_false_iff, decide_eq_false_iff_not,
    beq_eq_false_iff_ne]
  omega

theorem trimBlanks_of_not (h : ∀ c ∈ s, isBlank c = false) : trimBlanks s = s := by
  have kept {t : List Char} (h : ∀ c ∈ t, isBlank c = false) : t.dropWhile isBlank = t := by
    cases t with
    | nil => rfl
    | cons c rest => exact List.dropWhile_cons_of_neg (by simp [h c (.head _)])
  have reversed : ∀ c ∈ s.reverse, isBlank c = false := by simpa using h
  rw [trimBlanks, kept h, kept reversed, List.reverse_reverse]

theorem toList_toString (n : Int) :
    (toString n).toList = (if n < 0 then ['-'] else []) ++ Nat.toDigits 10 n.natAbs := by
  cases n with
  | ofNat n => simp [Int.toString_eq_repr, Int.repr, Nat.repr_eq_ofList_toDigits]
  | negSucc n => simp [Int.toString_eq_repr, Int.repr, Nat.repr_eq_ofList_toDigits]

theorem isDigit_of_mem_toDigits (h : c ∈ Nat.toDigits 10 n) : c.isDigit :=
  Nat.isDigit_of_mem_toDigits (by decide) (by decide) h

/-- An integer is read as it was written, unless it has too many digits. -/
theorem integer?_toString (n : Int) :
    integer? (toString n) = if isWritable n then some n else none := by
  have chars := toList_toString n
  have digits : ∀ c ∈ Nat.toDigits 10 n.natAbs, c.isDigit := fun _ => isDigit_of_mem_toDigits
  have unblank : ∀ c ∈ (toString n).toList, isBlank c = false := by
    intro c hc
    rw [chars, List.mem_append] at hc
    rcases hc with sign | digit
    · split at sign
      · obtain rfl := List.mem_singleton.mp sign
        decide
      · cases sign
    · exact isBlank_of_isDigit (digits c digit)
  have read := natural?_toDigits n.natAbs
  have same : isWritable n.natAbs = isWritable n := by
    rw [Bool.eq_iff_iff, isWritable_iff, isWritable_iff]
    rfl
  rw [same] at read
  unfold integer?
  rw [trimBlanks_of_not unblank, chars]
  by_cases negative : n < 0
  · rw [if_pos negative]
    show ((natural? (Nat.toDigits 10 n.natAbs)).bind fun k => some (k : Int)).map (fun k => -k) = _
    rw [read]
    split
    · exact congrArg some (show -(n.natAbs : Int) = n by omega)
    · rfl
  · rw [if_neg negative]
    dsimp only [List.nil_append]
    split
    · next rest h => exact absurd (digits '-' (h ▸ .head _)) (by decide)
    · next rest h => exact absurd (digits '+' (h ▸ .head _)) (by decide)
    · rw [read]
      split
      · exact congrArg some (show (n.natAbs : Int) = n by omega)
      · rfl

end Text

/-! ## Arguments -/

namespace CommandLine

variable {σ : Type} {specs : List (OptionSpec σ)} {argument : String} {mention : Mention σ}

theorem mem_of_mem_allNames {name : String} {spec : OptionSpec σ}
    (h : (name, spec) ∈ allNames specs) : spec ∈ specs := by
  obtain ⟨given, mem, named⟩ := List.mem_flatMap.mp h
  obtain ⟨_, -, same⟩ := List.mem_map.mp named
  cases same
  exact mem

theorem mem_of_lookup {name : String} {spec : OptionSpec σ}
    (h : (allNames specs).lookup name = some spec) : spec ∈ specs := by
  obtain ⟨before, after, split, -⟩ := List.lookup_eq_some_iff.mp h
  have mem : (name, spec) ∈ allNames specs := by simp [split]
  exact mem_of_mem_allNames mem

theorem mem_of_fullyNamed? (h : fullyNamed? specs argument = some mention) :
    mention.spec ∈ specs := by
  unfold fullyNamed? at h
  split at h
  · next found =>
    cases h
    exact mem_of_lookup found
  · split at h
    · cases h
    · obtain ⟨spec, found, rfl⟩ := Option.map_eq_some_iff.mp h
      exact mem_of_lookup found

theorem mem_of_candidates (h : mention ∈ candidates specs argument) : mention.spec ∈ specs := by
  have named {f : String × OptionSpec σ → Option (Mention σ)}
      (same : ∀ name spec m, f (name, spec) = some m → m.spec = spec)
      (h : mention ∈ (allNames specs).filterMap f) : mention.spec ∈ specs := by
    obtain ⟨⟨name, spec⟩, mem, found⟩ := List.mem_filterMap.mp h
    exact same name spec mention found ▸ mem_of_mem_allNames mem
  unfold candidates at h
  split at h
  · refine named (fun name spec m found => ?_) h
    obtain ⟨-, same⟩ := Option.ite_none_right_eq_some.mp found
    exact (congrArg Mention.spec (Option.some.inj same)).symm
  · refine named (fun name spec m found => ?_) h
    dsimp only at found
    split at found
    · cases found
      rfl
    · split at found
      · cases found
        rfl
      · cases found

theorem mem_of_tokenOf (h : tokenOf specs argument = .ok (.option mention)) :
    mention.spec ∈ specs := by
  unfold tokenOf at h
  split at h
  · cases h
  · split at h
    · cases h
    · split at h
      · next found =>
        cases h
        exact mem_of_fullyNamed? found
      · split at h
        · next found =>
          cases h
          exact mem_of_candidates (found ▸ List.mem_singleton_self _)
        · split at h <;> cases h
        · cases h

theorem mem_of_tokens {arguments : List String} {read : List (String × Token σ)}
    (h : tokens specs arguments = .ok read) :
    ∀ t ∈ read, ∀ mention, t.2 = .option mention → mention.spec ∈ specs := by
  induction arguments generalizing read with
  | nil =>
    cases h
    nofun
  | cons argument rest ih =>
    rw [tokens] at h
    split at h
    · cases h
      intro t ht mention is_option
      rcases List.mem_cons.mp ht with rfl | later
      · cases is_option
      · obtain ⟨_, -, rfl⟩ := List.mem_map.mp later
        cases is_option
    · cases first : tokenOf specs argument with
      | error e =>
        rw [first] at h
        cases h
      | ok token =>
        cases others : tokens specs rest with
        | error e =>
          rw [first, others] at h
          cases h
        | ok later =>
          rw [first, others] at h
          cases h
          intro t ht mention is_option
          rcases List.mem_cons.mp ht with rfl | ht
          · exact mem_of_tokenOf (first.trans (congrArg Except.ok is_option))
          · exact ih others t ht mention is_option

def OptionSpec.Keeps (P : σ → Prop) (spec : OptionSpec σ) : Prop :=
  match spec.effect with
  | .help => True
  | .flag set => ∀ name settings, P settings → P (set name settings)
  | .value set => ∀ text settings settings', P settings → set text settings = .ok settings' →
      P settings'

section Keeping

variable {P : σ → Prop} {r r' : Reading σ}

theorem applyFlag_keeps (keeps : mention.spec.Keeps P) (h : P r.settings)
    (ok : applyFlag specs mention r = .ok r') : P r'.settings := by
  have settled (ok : (match mention.spec.effect with
      | .help => throw .help
      | .flag set => pure { r with settings := set mention.name r.settings }
      | .value _ => pure r : Except Interruption (Reading σ)) = .ok r') : P r'.settings := by
    unfold OptionSpec.Keeps at keeps
    split at ok
    · cases ok
    · next set flag =>
      rw [flag] at keeps
      cases ok
      exact keeps _ _ h
    · cases ok
      exact h
  unfold applyFlag at ok
  dsimp only at ok
  split at ok
  · exact settled ok
  · split at ok
    · cases ok
    · obtain ⟨-, -, ok⟩ := exists_of_bind ok
      exact settled ok

theorem applyValue_keeps {spec : OptionSpec σ} (keeps : spec.Keeps P) {value : String}
    (h : P r.settings) (ok : applyValue spec value r = .ok r') : P r'.settings := by
  unfold OptionSpec.Keeps at keeps
  unfold applyValue at ok
  split at ok
  · next set takes =>
    rw [takes] at keeps
    split at ok
    · next settings done =>
      cases ok
      exact keeps _ _ _ h done
    · cases ok
  · cases ok
    exact h

theorem settings_readTail (r : Reading σ) (later : List (String × Token σ)) :
    (readTail r later).settings = r.settings := by
  unfold readTail
  dsimp only
  split <;> rfl

/-- What the effects of all options keep, a whole command line keeps. -/
theorem readAll_keeps {arguments : List (String × Token σ)}
    (keeps : ∀ t ∈ arguments, ∀ mention, t.2 = .option mention → mention.spec.Keeps P)
    (h : P r.settings) (ok : readAll specs r arguments = .ok r') : P r'.settings := by
  induction r, arguments using readAll.induct with
  | case1 r =>
    cases ok
    exact h
  | case2 r argument rest ih =>
    rw [readAll] at ok
    exact ih (List.forall_mem_cons.mp keeps).2 h ok
  | case3 r argument mention takes value rest attached ih =>
    obtain ⟨first, others⟩ := List.forall_mem_cons.mp keeps
    unfold readAll at ok
    simp only [takes, attached, reduceIte] at ok
    obtain ⟨read, applied, ok⟩ := exists_of_bind ok
    exact ih read others (applyValue_keeps (first mention rfl) h applied) ok
  | case4 r argument mention takes value rest alone ih =>
    obtain ⟨first, others⟩ := List.forall_mem_cons.mp keeps
    unfold readAll at ok
    simp only [takes, alone, reduceIte] at ok
    obtain ⟨read, applied, ok⟩ := exists_of_bind ok
    exact ih read (List.forall_mem_cons.mp others).2 (applyValue_keeps (first mention rfl) h applied)
      ok
  | case5 r argument mention rest takes alone unvalued =>
    unfold readAll at ok
    simp only [takes, alone, reduceIte] at ok
    cases ok
  | case6 r argument mention rest plain ih =>
    have plain : mention.spec.takesValue = false := by simpa using plain
    obtain ⟨first, others⟩ := List.forall_mem_cons.mp keeps
    unfold readAll at ok
    simp only [plain, Bool.false_eq_true, reduceIte] at ok
    obtain ⟨read, applied, ok⟩ := exists_of_bind ok
    exact ih read others (applyFlag_keeps (first mention rfl) h applied) ok
  | case7 r argument token rest known plain more free ih =>
    rw [readAll, if_pos more, free] at ok
    · exact ih (List.forall_mem_cons.mp keeps).2 h ok
    · exact known
    · exact plain
  | case8 r argument token rest known plain more value taken ih =>
    rw [readAll, if_pos more, taken] at ok
    · exact ih (List.forall_mem_cons.mp keeps).2 h ok
    · exact known
    · exact plain
  | case9 r argument token rest known plain last =>
    rw [readAll, if_neg last] at ok
    · cases ok
      rw [settings_readTail]
      exact h
    · exact known
    · exact plain

theorem parse_keeps (keeps : ∀ spec ∈ specs, spec.Keeps P) {name value : String}
    {settings settings' : σ} {arguments : List String} (h : P settings)
    (ok : parse specs name settings arguments = .ok (value, settings')) : P settings' := by
  unfold parse at ok
  obtain ⟨read, known, ok⟩ := exists_of_bind ok
  obtain ⟨r, done, ok⟩ := exists_of_bind ok
  have kept : P r.settings :=
    readAll_keeps (fun t ht mention is_option =>
      keeps _ (mem_of_tokens known t ht mention is_option)) h done
  split at ok
  · cases ok
  · cases ok
    exact kept
  · cases ok

end Keeping

end CommandLine

/-! ## Options -/

namespace Options

open CommandLine

/-- The numbers that are set can be written. -/
structure Written (o : Options) : Prop where
  headless : ∀ n, o.headless = some (some n) → Text.isWritable n = true
  cpuFrequency : ∀ n, o.cpuFrequency = some n → Text.isWritable n = true

theorem readValue_keeps {α : Type} {P : Options → Prop} {names : List String}
    {read : String → Except ValueProblem α} {set : Option α → Options → Options}
    (h : ∀ a o, (∀ b, a = some b → ∃ text, read text = .ok b) → P o → P (set a o)) :
    OptionSpec.Keeps P { names, effect := readValue read set } := by
  intro text o o' kept done
  cases text with
  | none =>
    cases done
    exact h none o nofun kept
  | some text =>
    dsimp only [Option.map_some] at done
    cases value : read text with
    | error problem =>
      rw [value] at done
      cases done
    | ok a =>
      rw [value] at done
      cases done
      refine h (some a) o ?_ kept
      rintro b ⟨⟩
      exact ⟨text, value⟩

theorem integerValue_keeps {P : Options → Prop} {names : List String}
    {set : Option Int → Options → Options}
    (h : ∀ n o, (∀ k, n = some k → Text.isWritable k = true) → P o → P (set n o)) :
    OptionSpec.Keeps P { names, effect := integerValue set } := by
  apply readValue_keeps
  intro n o read
  refine h n o fun k same => ?_
  obtain ⟨text, value⟩ := read k same
  split at value
  · next found =>
    cases value
    exact Text.isWritable_of_integer? found
  · cases value

theorem specs_keep : ∀ spec ∈ specs, spec.Keeps Written := by
  simp only [specs, List.forall_mem_cons, List.not_mem_nil, false_implies, implies_true, and_true]
  exact ⟨trivial, integerValue_keeps fun _ _ _ h => ⟨h.headless, h.cpuFrequency⟩,
    readValue_keeps fun _ _ _ h => ⟨h.headless, h.cpuFrequency⟩,
    integerValue_keeps fun _ _ written h => ⟨h.headless, written⟩,
    fun _ _ h => ⟨h.headless, h.cpuFrequency⟩,
    readValue_keeps fun _ _ _ h => ⟨h.headless, h.cpuFrequency⟩,
    integerValue_keeps fun _ _ written h =>
      ⟨fun n same => written n (Option.some.inj same), h.cpuFrequency⟩⟩

theorem written_of_parse {arguments : List String} {o : Options}
    (h : Options.parse arguments = .ok o) : o.Written := by
  obtain ⟨⟨rom, options⟩, parsed, done⟩ := exists_of_bind h
  have usual : ({} : Options).Written := by
    refine ⟨nofun, ?_⟩
    rintro n ⟨⟩
    decide +kernel
  have written := parse_keeps specs_keep usual parsed
  cases done
  exact ⟨written.headless, written.cpuFrequency⟩

/-! ## A launch without a window -/

def maskFlag (maskRegister : Bool) : String :=
  if maskRegister then "--random-mask-register" else "--no-random-mask-register"

/-- The command line that asks for a launch without a window. The file stands behind `--`, so that
it can have any name. -/
def commandLine (file : String) (n cpu : Int) (maskRegister : Bool) (level : LogLevel) :
    List String :=
  ["--headless", toString n, "--cpu-frequency", toString cpu, maskFlag maskRegister,
    "--log-level", level.name, "--", file]

theorem tokenOf_of_name {argument : String} {spec : OptionSpec Options}
    (dash : argument.startsWith "-" = true) (long : argument.length ≠ 1)
    (named : (allNames specs).lookup argument = some spec) :
    tokenOf specs argument = .ok (.option { spec, name := argument }) := by
  simp [tokenOf, dash, long, fullyNamed?, named]

theorem tokenOf_of_undashed {argument : String} (undashed : argument.startsWith "-" = false) :
    tokenOf specs argument = .ok .plain := by
  rw [tokenOf, undashed]
  rfl

/-- No name goes on like a negative number. -/
theorem not_digit_of_name {c : Char} (digit : c.isDigit) {name : String}
    {spec : OptionSpec Options} (h : (name, spec) ∈ allNames specs) :
    ¬['-', c] <+: name.toList := by
  have second : ∀ name ∈ (allNames specs).map Prod.fst, (name.toList[1]?).all (!·.isDigit) := by
    decide +kernel
  intro starts
  obtain ⟨rest, same⟩ := starts
  have letter := second name (List.mem_map.mpr ⟨_, h, rfl⟩)
  rw [← same] at letter
  simp [digit] at letter

theorem isNegativeNumber_of_digits {s : String} {digits : List Char} (chars : s.toList = '-' :: digits)
    (number : ∀ c ∈ digits, c.isDigit) (some_digit : digits ≠ []) :
    Text.isNegativeNumber s = true := by
  have decimal : ∀ c ∈ digits, Text.isDigit c = true := by
    intro c hc
    rw [Text.isDigit, Text.digitValue?_of_isDigit (number c hc)]
    rfl
  have whole : digits.getLast? ≠ some '\n' := by
    intro last
    exact absurd (number _ (List.mem_of_getLast? last)) (by decide)
  have none : digits.dropWhile Text.isDigit = [] := List.dropWhile_eq_nil_iff.mpr decimal
  have all : digits.takeWhile Text.isDigit = digits := List.takeWhile_eq_self_iff.mpr decimal
  simp only [Text.isNegativeNumber, chars, if_neg whole, none, all]
  simpa using some_digit

theorem candidates_of_negative {s : String} {d : Char} {rest : List Char}
    (chars : s.toList = '-' :: d :: rest) (digit : d.isDigit) : candidates specs s = [] := by
  have short : s.startsWith "--" = false := by
    rw [String.startsWith_string_eq_false_iff, chars]
    rintro ⟨rest, same⟩
    cases same
    exact absurd digit (by decide)
  rw [candidates, if_neg (by simp [short]), List.filterMap_eq_nil_iff]
  rintro ⟨name, spec⟩ mem
  have unlike := not_digit_of_name digit mem
  have other : name ≠ String.ofList (s.toList.take 2) := by
    rintro rfl
    exact unlike (by simp [chars])
  have longer : name.startsWith s = false := by
    rw [String.startsWith_string_eq_false_iff, chars]
    exact fun starts => unlike (.trans ⟨rest, rfl⟩ starts)
  simp [other, longer]

theorem fullyNamed?_of_negative {s : String} {d : Char} {rest : List Char}
    (chars : s.toList = '-' :: d :: rest) (digits : ∀ c ∈ d :: rest, c.isDigit) :
    fullyNamed? specs s = none := by
  have unnamed : (allNames specs).lookup s = none := by
    rw [List.lookup_eq_none_iff]
    rintro ⟨name, spec⟩ mem
    have unlike := not_digit_of_name (digits d (.head _)) mem
    rw [bne_iff_ne]
    rintro rfl
    exact unlike (by simp [chars])
  have unsplit : s.toList.dropWhile (· ≠ '=') = [] := by
    rw [List.dropWhile_eq_nil_iff, chars]
    refine List.forall_mem_cons.mpr ⟨by decide, fun c hc => ?_⟩
    have digit := digits c hc
    simp only [decide_eq_true_eq]
    rintro rfl
    exact absurd digit (by decide)
  rw [fullyNamed?, unnamed, splitEquals?, unsplit]

/-- An integer is taken for the value of an option, also if it is negative. -/
theorem tokenOf_toString (n : Int) : tokenOf specs (toString n) = .ok .plain := by
  have chars := Text.toList_toString n
  have digits : ∀ c ∈ Nat.toDigits 10 n.natAbs, c.isDigit := fun _ => Text.isDigit_of_mem_toDigits
  obtain ⟨d, rest, number⟩ :=
    List.exists_cons_of_ne_nil (Nat.toDigits_ne_nil (n := n.natAbs) (b := 10))
  rw [number] at chars digits
  have digit : d.isDigit := digits d (.head _)
  by_cases negative : n < 0
  · rw [if_pos negative] at chars
    have number := isNegativeNumber_of_digits chars digits (List.cons_ne_nil d rest)
    generalize toString n = s at chars number
    simp [tokenOf, fullyNamed?_of_negative chars digits, candidates_of_negative chars digit, number]
  · rw [if_neg negative] at chars
    have undashed : (toString n).startsWith "-" = false := by
      rw [String.startsWith_string_eq_false_iff, chars]
      rintro ⟨rest, same⟩
      cases same
      exact absurd digit (by decide)
    exact tokenOf_of_undashed undashed

theorem toString_ne_separator (n : Int) : toString n ≠ "--" := by
  intro same
  have chars := Text.toList_toString n
  have digit (dash : '-' ∈ Nat.toDigits 10 n.natAbs) : False :=
    absurd (Text.isDigit_of_mem_toDigits dash) (by decide)
  rw [same] at chars
  change ['-', '-'] = _ at chars
  split at chars
  · have digits : Nat.toDigits 10 n.natAbs = ['-'] := (List.cons.inj chars).2.symm
    rw [digits] at digit
    exact digit (.head _)
  · rw [List.nil_append] at chars
    rw [← chars] at digit
    exact digit (.head _)

theorem tokens_cons {argument : String} {token : Token Options} {rest : List String}
    {later : List (String × Token Options)} (ordinary : argument ≠ "--")
    (first : tokenOf specs argument = .ok token) (others : tokens specs rest = .ok later) :
    tokens specs (argument :: rest) = .ok ((argument, token) :: later) := by
  rw [tokens, if_neg ordinary, first, others]
  rfl

theorem tokens_commandLine (file : String) (n cpu : Int) (maskRegister : Bool) (level : LogLevel) :
    tokens specs (commandLine file n cpu maskRegister level) = .ok
      [("--headless", .option { spec := headlessOption, name := "--headless" }),
        (toString n, .plain),
        ("--cpu-frequency", .option { spec := cpuFrequencyOption, name := "--cpu-frequency" }),
        (toString cpu, .plain),
        (maskFlag maskRegister,
          .option { spec := maskRegisterOption, name := maskFlag maskRegister }),
        ("--log-level", .option { spec := logLevelOption, name := "--log-level" }),
        (level.name, .plain), ("--", .separator), (file, .plain)] := by
  have named {argument : String} {spec : OptionSpec Options}
      (long : argument.startsWith "-" = true ∧ argument.length ≠ 1 ∧ argument ≠ "--")
      (found : (allNames specs).lookup argument = some spec) {rest : List String}
      {later : List (String × Token Options)} (others : tokens specs rest = .ok later) :
      tokens specs (argument :: rest) =
        .ok ((argument, .option { spec, name := argument }) :: later) :=
    tokens_cons long.2.2 (tokenOf_of_name long.1 long.2.1 found) others
  have flag : (maskFlag maskRegister).startsWith "-" = true ∧ (maskFlag maskRegister).length ≠ 1 ∧
      maskFlag maskRegister ≠ "--" := by
    cases maskRegister <;> decide +kernel
  have flagged : (allNames specs).lookup (maskFlag maskRegister) = some maskRegisterOption := by
    cases maskRegister <;> rfl
  have plain : tokenOf specs level.name = .ok .plain :=
    tokenOf_of_undashed (by cases level <;> decide +kernel)
  apply named (by decide +kernel) rfl
  apply tokens_cons (toString_ne_separator n) (tokenOf_toString n)
  apply named (by decide +kernel) rfl
  apply tokens_cons (toString_ne_separator cpu) (tokenOf_toString cpu)
  apply named flag flagged
  apply named (by decide +kernel) rfl
  apply tokens_cons (by cases level <;> decide) plain
  rfl

theorem applyValue_integer (r : Reading Options) (names : List String)
    (set : Option Int → Options → Options) (n : Int) :
    applyValue { names, effect := integerValue set } (toString n) r =
      if Text.isWritable n then .ok { r with settings := set (some n) r.settings }
      else .error (.usage (.argument names (.notInteger (toString n)))) := by
  simp only [applyValue, integerValue, if_neg (toString_ne_separator n)]
  dsimp only [readValue, Option.map_some]
  rw [Text.integer?_toString]
  cases Text.isWritable n <;> rfl

theorem readAll_value {spec : OptionSpec Options} (takes : spec.takesValue = true)
    (name value : String) (r : Reading Options) (rest : List (String × Token Options)) :
    readAll specs r ((name, .option { spec, name }) :: (value, .plain) :: rest) =
      (applyValue spec value r).bind fun r => readAll specs r rest := by
  conv_lhs => unfold readAll
  simp only [takes, reduceIte]
  rfl

theorem readAll_flag (maskRegister : Bool) (r : Reading Options)
    (rest : List (String × Token Options)) :
    let name := maskFlag maskRegister
    readAll specs r ((name, .option { spec := maskRegisterOption, name }) :: rest) =
      readAll specs { r with settings := { r.settings with maskRegister } } rest := by
  have read : (!(maskFlag maskRegister).startsWith "--no-") = maskRegister := by
    cases maskRegister <;> decide +kernel
  intro name
  conv_lhs => unfold readAll
  show readAll specs { r with settings := { r.settings with
    maskRegister := !(maskFlag maskRegister).startsWith "--no-" } } rest = _
  rw [read]

theorem applyValue_logLevel (level : LogLevel) (r : Reading Options) :
    applyValue logLevelOption level.name r =
      .ok { r with settings := { r.settings with logLevel := some level.name } } := by
  have known : (LogLevel.all.map LogLevel.name).contains level.name = true := by
    cases level <;> decide
  have named : level.name ≠ "--" := by cases level <;> decide
  simp only [applyValue, logLevelOption, choiceValue, readValue, if_neg named, Option.map_some,
    known, if_true]

/-- The launch is refused if one of its numbers has too many digits, and for nothing else. -/
theorem parse_commandLine (file : String) (n cpu : Int) (maskRegister : Bool) (level : LogLevel) :
    Options.parse (commandLine file n cpu maskRegister level) =
      if Text.isWritable n = false then
        .error (.usage (.argument ["--headless"] (.notInteger (toString n))))
      else if Text.isWritable cpu = false then
        .error (.usage (.argument ["--cpu-frequency"] (.notInteger (toString cpu))))
      else
        .ok { rom := file, cpuFrequency := some cpu, maskRegister
              logLevel := some level.name, headless := some (some n) } := by
  rw [Options.parse, CommandLine.parse, tokens_commandLine]
  simp only [bind, Except.bind]
  rw [readAll_value rfl, headlessOption, applyValue_integer]
  cases cycles : Text.isWritable n with
  | false => rfl
  | true =>
    rw [if_pos rfl, if_neg (by decide)]
    dsimp only [Except.bind]
    rw [readAll_value rfl, cpuFrequencyOption, applyValue_integer]
    cases frequency : Text.isWritable cpu with
    | false => rfl
    | true =>
      rw [if_pos rfl, if_neg (by decide)]
      dsimp only [Except.bind]
      rw [readAll_flag, readAll_value rfl, applyValue_logLevel]
      rfl

theorem parse_file_headless {file : String} (undashed : file.startsWith "-" = false) {n : Int}
    (written : Text.isWritable n = true) :
    Options.parse [file, "--headless", toString n] =
      .ok { rom := file, headless := some (some n) } := by
  have ordinary : file ≠ "--" := by
    rintro rfl
    exact absurd undashed (by decide +kernel)
  have known : tokens specs [file, "--headless", toString n] =
      .ok [(file, .plain), ("--headless", .option { spec := headlessOption, name := "--headless" }),
        (toString n, .plain)] := by
    have named : (allNames specs).lookup "--headless" = some headlessOption := rfl
    apply tokens_cons ordinary (tokenOf_of_undashed undashed)
    apply tokens_cons (by decide) (tokenOf_of_name (by decide +kernel) (by decide +kernel) named)
    exact tokens_cons (toString_ne_separator n) (tokenOf_toString n) rfl
  rw [Options.parse, CommandLine.parse, known]
  simp only [bind, Except.bind]
  rw [readAll, if_pos (by rfl)]
  · dsimp only
    rw [readAll_value rfl, headlessOption, applyValue_integer, if_pos written]
    rfl
  · nofun
  · nofun

end Options

end Chip8
