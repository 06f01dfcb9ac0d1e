import Mathlib
import Chip8.Proofs.Machine.Faults
import Chip8.Proofs.Session.Moves
import Chip8.Rom

/-! # Loading programs

A program is read from a file, put into a machine or made a session of. Each of these ways takes
it exactly if it fits between `programStart` and the end of memory, and otherwise answers with its
size and that limit only. What was taken stands in memory behind the glyphs, with zeros around it,
and is fetched from there as big-endian words.
-/

namespace Chip8

/-- An answer to a program: what is `loaded` if the program fits, and the refusal if not. -/
def Admits {ε α : Type} (rom : List UInt8) (refusal : ε) (loaded : α → Prop) : Except ε α → Prop
  | .ok a => rom.length ≤ 3584 ∧ loaded a
  | .error e => 3584 < rom.length ∧ e = refusal

namespace Admits

variable {ε α β : Type} {rom : List UInt8} {refusal : ε} {loaded : α → Prop} {made : β → Prop}

theorem of_length {answer : Except ε α}
    (fits : rom.length ≤ 3584 → ∃ a, answer = .ok a ∧ loaded a)
    (long : 3584 < rom.length → answer = .error refusal) : Admits rom refusal loaded answer := by
  rcases Nat.lt_or_ge 3584 rom.length with exceeds | within
  · rw [long exceeds]
    exact ⟨exceeds, rfl⟩
  · obtain ⟨a, rfl, ha⟩ := fits within
    exact ⟨within, ha⟩

theorem exists_ok {answer : Except ε α} (h : Admits rom refusal loaded answer)
    (fits : rom.length ≤ 3584) : ∃ a, answer = .ok a ∧ loaded a := by
  cases answer with
  | ok a => exact ⟨a, rfl, h.2⟩
  | error e => exact absurd fits (Nat.not_le.mpr h.1)

theorem eq_error {answer : Except ε α} (h : Admits rom refusal loaded answer)
    (long : 3584 < rom.length) : answer = .error refusal := by
  cases answer with
  | ok a => exact absurd long (Nat.not_lt.mpr h.1)
  | error e => exact congrArg Except.error h.2

theorem bind {answer : Except ε α} {f : α → Except ε β} (h : Admits rom refusal loaded answer)
    (next : ∀ a, loaded a → Admits rom refusal made (f a)) :
    Admits rom refusal made (answer >>= f) := by
  cases answer with
  | ok a => exact next a h.2
  | error e => exact h

end Admits

/-! ## Memory -/

namespace Memory

theorem toList_store (m : Memory) {start : Nat} {bytes : List UInt8}
    (fits : start + bytes.length ≤ 4096) :
    (m.store start bytes).toList =
      m.toList.take start ++ bytes ++ m.toList.drop (start + bytes.length) := by
  apply List.ext_getElem
  · simp
    omega
  · intro a ha _
    rw [Vector.getElem_toList, getElem_store _ _ _ (by simpa using ha)]
    grind

/-- The bytes of memory when a program is loaded and nothing has run. -/
def image (rom : List UInt8) : List UInt8 :=
  fontData ++ List.replicate (0x200 - fontData.length) 0 ++ rom ++
    List.replicate (3584 - rom.length) 0

theorem toList_store_fresh {rom : List UInt8} (fits : rom.length ≤ 3584) (rng : RandomKey)
    (maskRegister : Bool) :
    ((Machine.fresh rng maskRegister).memory.store 0x200 rom).toList = image rom := by
  have glyphs : fontData.length = 80 := by decide
  have before : min (0x200 - 80) (4096 - 80) = 0x200 - 80 := by decide
  have behind : 4096 - 80 - (0x200 + rom.length - 80) = 3584 - rom.length := by omega
  have fresh : (Machine.fresh rng maskRegister).memory.toList =
      fontData ++ List.replicate (4096 - 80) 0 := by
    rw [Machine.fresh, toList_store _ (by decide), glyphs]
    simp only [Vector.toList_replicate, List.drop_replicate, List.take_zero, List.nil_append,
      Nat.zero_add]
  rw [toList_store _ (by omega), fresh, image]
  simp only [List.take_append, List.drop_append, glyphs, List.take_replicate, List.drop_replicate,
    before, behind]
  rw [List.take_of_length_le (by omega), List.drop_eq_nil_of_le (by omega), List.nil_append]

end Memory

/-! ## Machines -/

namespace Machine

variable {m m' : Machine} {rom : List UInt8}

/-- What loading a program makes of a machine. -/
structure Loaded (rom : List UInt8) (m m' : Machine) : Prop where
  others : m' = { m with memory := m'.memory }
  written : ∀ k < rom.length, m'.memory[0x200 + k]? = rom[k]?
  kept : ∀ a, ¬(0x200 ≤ a ∧ a < 0x200 + rom.length) → m'.memory[a]? = m.memory[a]?

/-- A machine that holds the program and has not run, wherever its program counter is sent. -/
structure Pristine (rom : List UInt8) (m : Machine) : Prop where
  image : m.memory.toList = Memory.image rom
  fetch : ∀ pc : UInt16, pc.toNat ≤ 0xFFE → ∃ word high low,
    { m with pc }.fetch = .ok word ∧ (Memory.image rom)[pc.toNat]? = some high ∧
      (Memory.image rom)[pc.toNat + 1]? = some low ∧
      word.toNat = 256 * high.toNat + low.toNat
  past : ∀ pc : UInt16, 0xFFF ≤ pc.toNat →
    { m with pc }.fetch = .error (.fetchPastEnd (some pc.toNat))

theorem loaded_store (m : Machine) (fits : rom.length ≤ 3584) :
    Loaded rom m { m with memory := m.memory.store 0x200 rom } where
  others := rfl
  written k hk := by
    have inside : 0x200 + k < 4096 := by omega
    rw [Vector.getElem?_eq_getElem inside, Memory.getElem_store _ _ _ inside]
    simp [hk]
  kept a outside := by
    by_cases inside : a < 4096
    · rw [Vector.getElem?_eq_getElem inside, Vector.getElem?_eq_getElem inside,
        Memory.getElem_store _ _ _ inside]
      split
      · next behind =>
        have past : rom.length ≤ a - 0x200 := by omega
        simp [past]
      · rfl
    · simp [inside]

theorem pristine_of_image (image : m.memory.toList = Memory.image rom) : Pristine rom m where
  image := image
  fetch pc inside := by
    have fetched : ({ m with pc } : Machine).pc.toNat < 0xFFF := by
      show pc.toNat < 0xFFF
      omega
    refine ⟨_, m.memory[pc.toNat], m.memory[pc.toNat + 1], fetch_of_lt _ fetched, ?_, ?_, ?_⟩
    · simp [← image]
    · simp [← image]
    · exact Memory.toNat_word _ _ _
  past pc outside := fetch_of_le _ outside

theorem admits_loadRom (m : Machine) (rom : List UInt8) (name : String) :
    Admits rom (RomError.tooLarge name rom.length 3584) (Loaded rom m) (m.loadRom rom name) :=
  .of_length (fun fits => ⟨_, loadRom_of_le m fits name, loaded_store m fits⟩) fun long => if_pos long

theorem admits_fresh (rng : RandomKey) (maskRegister : Bool) (rom : List UInt8) (name : String) :
    Admits rom (RomError.tooLarge name rom.length 3584) (Pristine rom)
      ((fresh rng maskRegister).loadRom rom name) :=
  .of_length
    (fun fits => ⟨_, loadRom_of_le _ fits name,
      pristine_of_image (Memory.toList_store_fresh fits rng maskRegister)⟩)
    fun long => if_pos long

end Machine

/-! ## Files and sessions -/

theorem Rom.admits_read {rom : List UInt8} {tree : FileTree} {path : String}
    (named : path.contains '\x00' = false) (contents : tree.read path = .ok rom) :
    Admits rom (.rom (.tooLarge (FileTree.baseName path) rom.length 3584)) (· = rom)
      (Rom.read tree path) := by
  rw [Rom.read, named, contents]
  exact .of_length (fun fits => ⟨rom, if_neg (Nat.not_lt.mpr fits), rfl⟩) fun long => if_pos long

namespace Session

variable {τ : Type} [TimeScale τ]

theorem admits_create {config : Config τ} {level : LogLevel} {now : Quantity τ}
    (known : LogLevel.ofName? config.logLevel = some level) (readable : now.MeasurableFrom now)
    (rom : List UInt8) (name : String) (seed : RandomKey) :
    Admits rom (.rom (.tooLarge name rom.length 3584)) (fun s => s.machine.Pristine rom)
      (create config rom name seed now) := by
  refine .of_length (fun fits => ?_) fun long => ?_
  · obtain ⟨s, created⟩ := exists_create known fits readable
    refine ⟨s, created, Machine.pristine_of_image ?_⟩
    rw [machine_create created]
    exact Memory.toList_store_fresh fits seed config.maskRegister
  · have refused : (Machine.fresh seed config.maskRegister).loadRom rom name =
        .error (.tooLarge name rom.length 3584) := if_pos long
    simp only [create, Logger.create, known, freshMachine, refused, bind, Except.bind]

/-- Every way to load a program takes it exactly if it fits, and refuses a longer one with its size
and the limit. Loading changes the program's bytes of a machine and nothing else; a new machine or
session holds the program behind the glyphs and fetches the words of that memory. A session needs a
log level that there is and a clock that can be read, as it notes the program in its log. -/
theorem admits_rom (rom : List UInt8) :
    (∀ (tree : FileTree) (path : String),
      path.contains '\x00' = false → tree.read path = .ok rom →
        Admits rom (.rom (.tooLarge (FileTree.baseName path) rom.length 3584)) (· = rom)
          (Rom.read tree path)) ∧
    (∀ (m : Machine) (name : String),
      Admits rom (.tooLarge name rom.length 3584) (m.Loaded rom) (m.loadRom rom name)) ∧
    (∀ (rng : RandomKey) (maskRegister : Bool),
      Admits rom (.tooLarge "<memory>" rom.length 3584) (Machine.Pristine rom)
        ((Machine.fresh rng maskRegister).loadRom rom "<memory>")) ∧
    ∀ (config : Config τ) (now : Quantity τ) (seed : RandomKey),
      (LogLevel.ofName? config.logLevel).isSome → now.MeasurableFrom now →
        (∀ name : String,
          Admits rom (.rom (.tooLarge name rom.length 3584)) (fun s => s.machine.Pristine rom)
            (create config rom name seed now)) ∧
        ∀ (tree : FileTree) (path : String),
          path.contains '\x00' = false → tree.read path = .ok rom →
            Admits rom (.rom (.tooLarge (FileTree.baseName path) rom.length 3584))
              (fun s => s.machine.Pristine rom)
              (do create config (← Rom.read tree path) (FileTree.baseName path) seed now) := by
  refine ⟨fun tree path named contents => Rom.admits_read named contents,
    fun m name => m.admits_loadRom rom name,
    fun rng maskRegister => Machine.admits_fresh rng maskRegister rom "<memory>",
    fun config now seed known readable => ?_⟩
  obtain ⟨level, known⟩ := Option.isSome_iff_exists.mp known
  refine ⟨fun name => admits_create known readable rom name seed,
    fun tree path named contents => (Rom.admits_read named contents).bind ?_⟩
  rintro program rfl
  exact admits_create known readable program (FileTree.baseName path) seed

/-- The longest program is taken, and with one byte more it is refused. -/
theorem admits_rom_longest :
    (∃ s : Session Rat, create {} (List.replicate 3584 0x12) "longest" ⟨0, 0⟩ (.real 0) = .ok s ∧
      s.machine.memory.toList = Memory.image (List.replicate 3584 0x12)) ∧
    Rom.read { entries := [({ path := ["rom"] }, .file (List.replicate 3585 0x12))] } "rom" =
      .error (.rom (.tooLarge "rom" 3585 3584)) := by
  constructor
  · obtain ⟨-, -, -, admits⟩ := admits_rom (τ := Rat) (List.replicate 3584 0x12)
    obtain ⟨s, created, pristine⟩ := ((admits {} (.real 0) ⟨0, 0⟩ (by decide +kernel)
      (Quantity.measurableFrom_real 0 0)).1 "longest").exists_ok
        (List.length_replicate ▸ by decide)
    exact ⟨s, created, pristine.image⟩
  · -- The bytes themselves play no part, and there are too many of them to compute with.
    obtain ⟨rom, long, bytes⟩ : ∃ rom : List UInt8, rom.length = 3585 ∧
        rom = List.replicate 3585 0x12 := ⟨_, List.length_replicate, rfl⟩
    obtain ⟨read, -⟩ := admits_rom (τ := Rat) rom
    have refused := (read { entries := [({ path := ["rom"] }, .file rom)] } "rom" (by cbv)
      (by cbv)).eq_error (long ▸ by decide)
    have base : FileTree.baseName "rom" = "rom" := by cbv
    rw [← bytes, refused, long, base]
    rfl

end Session

end Chip8
