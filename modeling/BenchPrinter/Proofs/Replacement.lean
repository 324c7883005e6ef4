import BenchPrinter.Proofs.Encoding
import Mathlib.Algebra.Ring.Nat

/-!
Decoding bytes that are not all characters. Where no character can be read, the longest beginning of
one, or else a single byte, is passed over for one replacement character. The decoder looks at one
byte at a time, and it still finds exactly these runs.
-/

namespace BenchPrinter.Utf8

/-- Some character begins with these bytes. -/
def Begins (bytes : List UInt8) : Prop :=
  ∃ character, bytes <+: String.utf8EncodeChar character

/-- In front of the later bytes no character can be read. The run is a single byte or the beginning
of a character, and no longer beginning of a character stands here. -/
structure Broken (run later : List UInt8) : Prop where
  filled : run ≠ []
  unreadable : ∀ character, ¬ String.utf8EncodeChar character <+: run ++ later
  begun : Begins run ∨ run.length = 1
  longest : ∀ longer, Begins longer → longer <+: run ++ later → longer.length ≤ run.length

/-- The text that bytes are decoded to. A character stands for its bytes, and one replacement
character for each broken run. -/
inductive Lossy : List UInt8 → List Char → Prop
  | nil : Lossy [] []
  | char (character : Char) {later : List UInt8} {text : List Char} (rest : Lossy later text) :
      Lossy (String.utf8EncodeChar character ++ later) (character :: text)
  | fault {run later : List UInt8} {text : List Char} (broken : Broken run later)
      (rest : Lossy later text) : Lossy (run ++ later) ('\uFFFD' :: text)

section

variable {bytes later otherLater run otherRun : List UInt8} {text other : List Char}

/-- No two characters begin the same bytes. -/
theorem char_unique {character otherCharacter : Char}
    (same : String.utf8EncodeChar character ++ later =
      String.utf8EncodeChar otherCharacter ++ otherLater) :
    character = otherCharacter ∧ later = otherLater := by
  have scanned := congrArg (scan .between) same
  rw [scan_char, scan_char] at scanned
  obtain rfl : character = otherCharacter := Option.some.inj (List.cons.inj scanned).1
  exact ⟨rfl, List.append_cancel_left same⟩

/-- Of two broken runs neither is longer. -/
theorem Broken.length_le (broken : Broken run later) (otherBroken : Broken otherRun otherLater)
    (same : run ++ later = otherRun ++ otherLater) : run.length ≤ otherRun.length := by
  rcases broken.begun with begins | single
  · exact otherBroken.longest run begins ⟨later, same⟩
  · rw [single]
    exact List.length_pos_of_ne_nil otherBroken.filled

theorem Broken.unique (broken : Broken run later) (otherBroken : Broken otherRun otherLater)
    (same : run ++ later = otherRun ++ otherLater) : run = otherRun ∧ later = otherLater :=
  List.append_inj same
    (Nat.le_antisymm (broken.length_le otherBroken same) (otherBroken.length_le broken same.symm))

theorem Lossy.cases_nil (lossy : Lossy [] text) : text = [] := by
  generalize empty : [] = bytes at lossy
  cases lossy with
  | nil => rfl
  | char character rest => exact absurd empty.symm (by simp)
  | fault broken rest => exact absurd empty.symm (by simp [broken.filled])

theorem Lossy.cases_char {character : Char}
    (lossy : Lossy (String.utf8EncodeChar character ++ later) text) :
    ∃ rest, text = character :: rest ∧ Lossy later rest := by
  generalize whole : String.utf8EncodeChar character ++ later = bytes at lossy
  cases lossy with
  | nil => exact absurd whole (by simp)
  | char other rest =>
      obtain ⟨rfl, rfl⟩ := char_unique whole
      exact ⟨_, rfl, rest⟩
  | fault broken rest => exact absurd ⟨later, whole⟩ (broken.unreadable character)

theorem Lossy.cases_fault (broken : Broken run later) (lossy : Lossy (run ++ later) text) :
    ∃ rest, text = '\uFFFD' :: rest ∧ Lossy later rest := by
  generalize whole : run ++ later = bytes at lossy
  cases lossy with
  | nil => exact absurd whole (by simp [broken.filled])
  | char character rest => exact absurd ⟨_, whole.symm⟩ (broken.unreadable character)
  | fault otherBroken rest =>
      obtain ⟨rfl, rfl⟩ := broken.unique otherBroken whole
      exact ⟨_, rfl, rest⟩

theorem Lossy.unique (lossy : Lossy bytes text) (alsoLossy : Lossy bytes other) : other = text := by
  induction lossy generalizing other with
  | nil => exact alsoLossy.cases_nil
  | char character _ inductionHypothesis =>
      obtain ⟨rest, rfl, restLossy⟩ := alsoLossy.cases_char
      rw [inductionHypothesis restLossy]
  | fault broken _ inductionHypothesis =>
      obtain ⟨rest, rfl, restLossy⟩ := alsoLossy.cases_fault broken
      rw [inductionHypothesis restLossy]

end

/-! The decoder finds the same characters and the same runs. -/

/-- The bytes of a character after those that are known. -/
def remainder (code : Nat) : Nat → List UInt8
  | 0 => []
  | left + 1 => UInt8.ofNat (code / 64 ^ left % 64 + 128) :: remainder code left

/-- The bytes have led into a character: each code with the known bits goes on from them, as long as
its next byte lies in the range. -/
structure Opens (read : List UInt8) (bits left lowest highest : Nat) : Prop where
  range : 0x80 ≤ lowest ∧ lowest ≤ highest ∧ highest ≤ 0xBF
  encodes : ∀ code, code / 64 ^ (left + 1) = bits →
    lowest ≤ code / 64 ^ left % 64 + 128 ∧ code / 64 ^ left % 64 + 128 ≤ highest →
    String.utf8EncodeChar (Char.ofNat code) = read ++ remainder code (left + 1)
  scans : ∀ later,
    scan .between (read ++ later) = scan (.inside bits (left + 1) lowest highest) later

section

variable {read : List UInt8} {bits left lowest highest : Nat} {byte : UInt8}

theorem Opens.filled (opens : Opens read bits left lowest highest) : read ≠ [] := by
  rintro rfl
  exact absurd (opens.scans []) (by simp [scan, finish])

/-- The code whose next byte adds six known bits, with zeros behind them. -/
theorem Opens.encodes_next (opens : Opens read bits left lowest highest) {next : Nat}
    (within : lowest ≤ next ∧ next ≤ highest) {code : Nat}
    (known : code / 64 ^ left = bits * 64 + (next - 0x80)) :
    String.utf8EncodeChar (Char.ofNat code) = read ++ UInt8.ofNat next :: remainder code left := by
  have range := opens.range
  have upper : code / 64 ^ (left + 1) = bits := by
    rw [Nat.pow_succ, ← Nat.div_div_eq_div_mul, known]
    omega
  have lower : code / 64 ^ left % 64 + 128 = next := by
    rw [known]
    omega
  rw [opens.encodes code upper (by rwa [lower]), remainder, lower]

theorem Opens.begins (opens : Opens read bits left lowest highest) : Begins read := by
  have known : (bits * 64 + (lowest - 0x80)) * 64 ^ left / 64 ^ left =
      bits * 64 + (lowest - 0x80) := Nat.mul_div_cancel _ (Nat.pow_pos (by decide))
  exact ⟨_, _, (opens.encodes_next ⟨Nat.le_refl lowest, opens.range.2.1⟩ known).symm⟩

/-- The last byte completes a character. -/
theorem Opens.completes (opens : Opens read bits 0 lowest highest)
    (within : lowest ≤ byte.toNat ∧ byte.toNat ≤ highest) :
    String.utf8EncodeChar (Char.ofNat (bits * 64 + (byte.toNat - 0x80))) = read ++ [byte] := by
  have encoded := opens.encodes_next within (Nat.div_one (bits * 64 + (byte.toNat - 0x80)))
  rwa [UInt8.ofNat_toNat] at encoded

/-- A byte in the range completes the character, or it adds its six bits and leads on. -/
theorem step_inside_of_within (within : lowest ≤ byte.toNat ∧ byte.toNat ≤ highest) :
    step (.inside bits (left + 1) lowest highest) byte.toNat =
      if left = 0 then ([some (Char.ofNat (bits * 64 + (byte.toNat - 0x80)))], .between)
      else ([], .inside (bits * 64 + (byte.toNat - 0x80)) left 0x80 0xBF) := by
  simp only [step, if_pos within]
  cases left <;> simp

theorem Opens.step (opens : Opens read bits (left + 1) lowest highest)
    (within : lowest ≤ byte.toNat ∧ byte.toNat ≤ highest) :
    Opens (read ++ [byte]) (bits * 64 + (byte.toNat - 0x80)) left 0x80 0xBF where
  range := by decide
  encodes code known _ := by
    rw [opens.encodes_next within known, UInt8.ofNat_toNat, List.append_assoc,
      List.singleton_append]
  scans later := by
    rw [List.append_assoc, opens.scans, List.singleton_append,
      scan_of_step ((step_inside_of_within within).trans (if_neg (Nat.succ_ne_zero left))),
      List.nil_append]

theorem code_ofNat {code : Nat} (valid : code.isValidChar) :
    (Char.ofNat code).val.toNat = code := by
  rw [Char.ofNat, dif_pos valid]
  rfl

/-! The first byte tells how many bytes follow it. -/

section

variable {code : Nat}

theorem encode_two (within : 0xC2 ≤ byte.toNat ∧ byte.toNat < 0xE0)
    (known : code / 64 = byte.toNat - 0xC0) :
    String.utf8EncodeChar (Char.ofNat code) = byte :: remainder code 1 := by
  have leading : code / 64 % 32 + 192 = byte.toNat := by omega
  have same := code_ofNat (show code.isValidChar by unfold Nat.isValidChar; omega)
  simp only [String.utf8EncodeChar, same]
  rw [if_neg (by omega), if_pos (by omega), leading, UInt8.ofNat_toNat]
  simp [remainder]

/-- The range of the second byte leaves out shorter characters and surrogates. -/
theorem encode_three (within : 0xE0 ≤ byte.toNat ∧ byte.toNat < 0xF0)
    (known : code / 4096 = byte.toNat - 0xE0)
    (second : (if byte.toNat = 0xE0 then 0xA0 else 0x80) ≤ code / 64 % 64 + 128 ∧
      code / 64 % 64 + 128 ≤ if byte.toNat = 0xED then 0x9F else 0xBF) :
    String.utf8EncodeChar (Char.ofNat code) = byte :: remainder code 2 := by
  have leading : code / 4096 % 16 + 224 = byte.toNat := by omega
  have bounds : 0x800 ≤ code ∧ code < 0x10000 ∧ (code < 0xD800 ∨ 0xDFFF < code) := by
    split at second <;> split at second <;> omega
  have same := code_ofNat (show code.isValidChar by unfold Nat.isValidChar; omega)
  simp only [String.utf8EncodeChar, same]
  rw [if_neg (by omega), if_neg (by omega), if_pos (by omega), leading, UInt8.ofNat_toNat]
  simp [remainder]

theorem encode_four (within : 0xF0 ≤ byte.toNat ∧ byte.toNat < 0xF5)
    (known : code / 262144 = byte.toNat - 0xF0)
    (second : (if byte.toNat = 0xF0 then 0x90 else 0x80) ≤ code / 4096 % 64 + 128 ∧
      code / 4096 % 64 + 128 ≤ if byte.toNat = 0xF4 then 0x8F else 0xBF) :
    String.utf8EncodeChar (Char.ofNat code) = byte :: remainder code 3 := by
  have leading : code / 262144 % 8 + 240 = byte.toNat := by omega
  have bounds : 0x10000 ≤ code ∧ code < 0x110000 := by
    split at second <;> split at second <;> omega
  have same := code_ofNat (show code.isValidChar by unfold Nat.isValidChar; omega)
  simp only [String.utf8EncodeChar, same]
  rw [if_neg (by omega), if_neg (by omega), if_neg (by omega), leading, UInt8.ofNat_toNat]
  simp [remainder]

end

/-- A first byte is a character, is broken, or leads into a character. -/
theorem step_between (byte : UInt8) :
    (∃ character, step .between byte.toNat = ([some character], .between) ∧
        String.utf8EncodeChar character = [byte]) ∨
      step .between byte.toNat = ([none], .between) ∨
      ∃ bits left lowest highest,
        step .between byte.toNat = ([], .inside bits (left + 1) lowest highest) ∧
          Opens [byte] bits left lowest highest := by
  have leads {bits left lowest highest : Nat}
      (started : step .between byte.toNat = ([], .inside bits (left + 1) lowest highest))
      (later : List UInt8) :
      scan .between ([byte] ++ later) = scan (.inside bits (left + 1) lowest highest) later :=
    scan_of_step started later
  by_cases single : byte.toNat < 0x80
  · have same := code_ofNat (show byte.toNat.isValidChar by unfold Nat.isValidChar; omega)
    refine .inl ⟨Char.ofNat byte.toNat, by rw [step, begin, if_pos single], ?_⟩
    simp only [String.utf8EncodeChar, same]
    rw [if_pos (by omega), UInt8.ofNat_toNat]
  by_cases lone : byte.toNat < 0xC2
  · exact .inr (.inl (by rw [step, begin, if_neg single, if_pos lone]))
  by_cases two : byte.toNat < 0xE0
  · have started : step .between byte.toNat =
        ([], .inside (byte.toNat - 0xC0) (0 + 1) 0x80 0xBF) := by
      rw [step, begin, if_neg single, if_neg lone, if_pos two]
    exact .inr (.inr ⟨_, _, _, _, started, by decide,
      fun code known _ => encode_two (by omega) known, leads started⟩)
  by_cases three : byte.toNat < 0xF0
  · have started : step .between byte.toNat = ([], .inside (byte.toNat - 0xE0) (1 + 1)
        (if byte.toNat = 0xE0 then 0xA0 else 0x80) (if byte.toNat = 0xED then 0x9F else 0xBF)) := by
      rw [step, begin, if_neg single, if_neg lone, if_neg two, if_pos three]
    exact .inr (.inr ⟨_, _, _, _, started, by split <;> split <;> omega,
      fun code known second => encode_three (by omega) known second, leads started⟩)
  by_cases four : byte.toNat < 0xF5
  · have started : step .between byte.toNat = ([], .inside (byte.toNat - 0xF0) (2 + 1)
        (if byte.toNat = 0xF0 then 0x90 else 0x80) (if byte.toNat = 0xF4 then 0x8F else 0xBF)) := by
      rw [step, begin, if_neg single, if_neg lone, if_neg two, if_neg three, if_pos four]
    exact .inr (.inr ⟨_, _, _, _, started, by split <;> split <;> omega,
      fun code known second => encode_four (by omega) known second, leads started⟩)
  · exact .inr (.inl (by
      rw [step, begin, if_neg single, if_neg lone, if_neg two, if_neg three, if_neg four]))

/-- Bytes that have led into a character are left when the next byte cannot go on with it. -/
theorem scan_of_outside (outside : ¬ (lowest ≤ byte.toNat ∧ byte.toNat ≤ highest))
    (later : List UInt8) :
    scan (.inside bits left lowest highest) (byte :: later) =
      none :: scan .between (byte :: later) := by
  simp only [scan, step, if_neg outside, List.cons_append]

end

/-- Whatever follows these bytes, the decoder begins with a fault. -/
def Refused (bytes : List UInt8) : Prop :=
  ∀ later, ∃ items, scan .between (bytes ++ later) = none :: items

section

variable {bytes longer whole read : List UInt8} {byte : UInt8} {bits left lowest highest : Nat}

theorem unreadable_of_fault {items : List Item} (fault : scan .between bytes = none :: items)
    (character : Char) : ¬ String.utf8EncodeChar character <+: bytes := by
  rintro ⟨later, rfl⟩
  rw [scan_char] at fault
  cases fault

/-- No character goes on from refused bytes. -/
theorem Refused.length_lt (refused : Refused bytes) (leads : bytes <+: whole)
    (begins : Begins longer) (longerLeads : longer <+: whole) : longer.length < bytes.length := by
  rw [← Nat.not_le]
  intro long
  obtain ⟨character, within⟩ := begins
  obtain ⟨later, encoded⟩ :=
    (List.prefix_of_prefix_length_le leads longerLeads long).trans within
  obtain ⟨items, fault⟩ := refused later
  rw [encoded] at fault
  exact unreadable_of_fault fault character List.prefix_rfl

theorem Refused.broken (refused : Refused [byte]) (later : List UInt8) : Broken [byte] later where
  filled := nofun
  unreadable := by
    obtain ⟨items, fault⟩ := refused later
    exact unreadable_of_fault fault
  begun := .inr rfl
  longest longer begins leads :=
    Nat.le_of_lt (refused.length_lt ⟨later, rfl⟩ begins leads)

theorem Opens.broken_of_refused (opens : Opens read bits left lowest highest)
    (refused : Refused (read ++ [byte])) (later : List UInt8) : Broken read (byte :: later) where
  filled := opens.filled
  unreadable := by
    obtain ⟨items, fault⟩ := refused later
    rw [List.append_assoc] at fault
    exact unreadable_of_fault fault
  begun := .inl opens.begins
  longest longer begins leads := by
    have shorter := refused.length_lt ⟨later, List.append_assoc _ _ _⟩ begins leads
    rw [List.length_append, List.length_singleton] at shorter
    exact Nat.le_of_lt_succ shorter

theorem Opens.broken_of_end (opens : Opens read bits left lowest highest) : Broken read [] where
  filled := opens.filled
  unreadable := unreadable_of_fault (opens.scans [])
  begun := .inl opens.begins
  longest longer _ leads := by simpa using leads.length_le

end

/-- What the decoder does between two characters and inside one. -/
theorem lossy_scan (bytes : List UInt8) :
    Lossy bytes (decodeLossy bytes) ∧
      ∀ {read : List UInt8} {bits left lowest highest : Nat},
        Opens read bits left lowest highest →
        Lossy (read ++ bytes)
          ((scan (.inside bits (left + 1) lowest highest) bytes).map (·.getD '\uFFFD')) := by
  -- inside a character the bytes read so far are kept in front: if the next byte cannot go on with
  -- them, they are the broken run, and that byte is read again between two characters
  induction bytes with
  | nil => exact ⟨.nil, fun opens => .fault opens.broken_of_end .nil⟩
  | cons byte rest inductionHypothesis =>
      obtain ⟨fresh, going⟩ := inductionHypothesis
      have restart : Lossy (byte :: rest) (decodeLossy (byte :: rest)) := by
        rw [decodeLossy]
        rcases step_between byte with
          ⟨character, started, encoded⟩ | started | ⟨bits, left, lowest, highest, started, opens⟩
        · have char := Lossy.char character fresh
          rw [encoded] at char
          rw [scan_of_step started]
          exact char
        · have refused : Refused [byte] := fun later => ⟨_, scan_of_step started later⟩
          rw [scan_of_step started]
          exact .fault (refused.broken rest) fresh
        · rw [scan_of_step started]
          exact going opens
      refine ⟨restart, fun {read bits left lowest highest} opens => ?_⟩
      by_cases within : lowest ≤ byte.toNat ∧ byte.toNat ≤ highest
      · cases left with
        | zero =>
            have completed : step (.inside bits 1 lowest highest) byte.toNat = _ :=
              (step_inside_of_within within).trans (if_pos rfl)
            have encoded := opens.completes within
            generalize Char.ofNat (bits * 64 + (byte.toNat - 0x80)) = character at completed encoded
            have char := Lossy.char character fresh
            rw [encoded, List.append_assoc] at char
            rw [scan_of_step completed]
            exact char
        | succ left =>
            have further := going (opens.step within)
            rw [List.append_assoc] at further
            have led : step (.inside bits (left + 1 + 1) lowest highest) byte.toNat = _ :=
              (step_inside_of_within within).trans (if_neg (Nat.succ_ne_zero left))
            rw [scan_of_step led]
            exact further
      · have refused : Refused (read ++ [byte]) := fun later =>
          ⟨_, by rw [List.append_assoc, opens.scans]; exact scan_of_outside within later⟩
        rw [scan_of_outside within]
        exact .fault (opens.broken_of_refused refused rest) restart

/-- The decoder gives the one text that the bytes are decoded to. -/
theorem lossy_iff {bytes : List UInt8} {text : List Char} :
    Lossy bytes text ↔ text = decodeLossy bytes := by
  have decoded := (lossy_scan bytes).1
  constructor
  · exact decoded.unique
  · rintro rfl
    exact decoded

/-- A character that is cut off is one run, and a byte that begins no character is one by itself. -/
example : decodeLossy [0xE2, 0x82, 0x0A, 0x82, 0x82] = ['\uFFFD', '\n', '\uFFFD', '\uFFFD'] := by
  decide

end BenchPrinter.Utf8
