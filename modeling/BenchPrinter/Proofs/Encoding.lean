import BenchPrinter.Proofs.Cutting
import BenchPrinter.Text.Utf8

/-!
Text as bytes. The decoder reads back what was encoded, and no byte inside a longer character can be
mistaken for a newline or a carriage return, so cutting the bytes into lines cuts the text.
-/

namespace BenchPrinter

namespace Utf8

theorem toList_loop (bytes : ByteArray) (index : Nat) (earlier : List UInt8) :
    ByteArray.toList.loop bytes index earlier =
      earlier.reverse ++ bytes.data.toList.drop index := by
  rw [ByteArray.toList.loop]
  split
  · rename_i inside
    have inData : index < bytes.data.toList.length := inside
    have next : bytes.get! index = bytes.data.toList[index] :=
      getElem!_pos bytes.data index inside
    rw [toList_loop bytes (index + 1), List.drop_eq_getElem_cons inData, next]
    simp
  · rename_i outside
    have beyond : bytes.data.toList.length ≤ index := Nat.le_of_not_lt outside
    rw [List.drop_of_length_le beyond, List.append_nil]
termination_by bytes.size - index

/-- The bytes of a list of characters. -/
def encodeChars (text : List Char) : List UInt8 := text.flatMap String.utf8EncodeChar

@[simp] theorem encodeChars_nil : encodeChars [] = [] := rfl

@[simp] theorem encodeChars_append (first second : List Char) :
    encodeChars (first ++ second) = encodeChars first ++ encodeChars second :=
  List.flatMap_append

@[simp] theorem encodeChars_cons (character : Char) (later : List Char) :
    encodeChars (character :: later) = String.utf8EncodeChar character ++ encodeChars later :=
  List.flatMap_cons

theorem encode_eq (text : String) : encode text = encodeChars text.toList := by
  have bytes : text.toByteArray.data.toList = encodeChars text.toList := by
    conv_lhs => rw [← String.ofList_toList (s := text), String.toByteArray_ofList]
    exact List.toList_data_toByteArray
  rw [encode, ByteArray.toList, toList_loop, String.toUTF8_eq_toByteArray, bytes]
  rfl

theorem scan_of_step {state next : State} {byte : UInt8} {items : List Item}
    (stepped : step state byte.toNat = (items, next)) (later : List UInt8) :
    scan state (byte :: later) = items ++ scan next later := by
  rw [scan, stepped]

theorem toNat_byte {number : Nat} (small : number < 256) : (UInt8.ofNat number).toNat = number := by
  rw [UInt8.toNat_ofNat']
  omega

/-- A later byte carries the six lowest bits of what is known after it. -/
theorem step_inside {bits code missing lowest highest : Nat} (known : bits = code / 64)
    (within : lowest ≤ code % 64 + 128 ∧ code % 64 + 128 ≤ highest) :
    step (.inside bits missing lowest highest) (UInt8.ofNat (code % 64 + 128)).toNat =
      if missing ≤ 1 then ([some (Char.ofNat code)], .between)
      else ([], .inside code (missing - 1) 0x80 0xBF) := by
  have whole : bits * 64 + (code % 64 + 128 - 0x80) = code := by omega
  simp only [toNat_byte (show code % 64 + 128 < 256 by omega), step, within, and_self, if_true,
    whole]

/-- The bytes of one character give this character, whatever follows them. -/
theorem scan_char (character : Char) (later : List UInt8) :
    scan .between (String.utf8EncodeChar character ++ later) =
      some character :: scan .between later := by
  have valid : character.val.toNat < 0xD800 ∨
      0xDFFF < character.val.toNat ∧ character.val.toNat < 0x110000 := character.valid
  have same : Char.ofNat character.val.toNat = character := Char.ofNat_toNat character
  unfold String.utf8EncodeChar
  generalize character.val.toNat = code at valid same
  have last : step (.inside (code / 64) 1 0x80 0xBF) (UInt8.ofNat (code % 64 + 128)).toNat =
      ([some character], .between) := by
    rw [step_inside rfl (by omega), if_pos (by omega), same]
  have third : step (.inside (code / 4096) 2 0x80 0xBF)
      (UInt8.ofNat (code / 64 % 64 + 128)).toNat = ([], .inside (code / 64) 1 0x80 0xBF) := by
    rw [step_inside (by omega) (by omega), if_neg (by omega)]
  dsimp only
  split
  · have single : step .between (UInt8.ofNat code).toNat = ([some character], .between) := by
      rw [toNat_byte (by omega), step, begin, if_pos (by omega), same]
    rw [List.singleton_append, scan_of_step single, List.singleton_append]
  split
  · have bits : code / 64 % 32 + 192 - 192 = code / 64 := by omega
    have first : step .between (UInt8.ofNat (code / 64 % 32 + 192)).toNat =
        ([], .inside (code / 64) 1 0x80 0xBF) := by
      rw [toNat_byte (by omega), step, begin, if_neg (by omega), if_neg (by omega),
        if_pos (by omega), bits]
    simp only [List.cons_append, List.nil_append, scan_of_step first, scan_of_step last]
  -- The two longest forms narrow the range of their second byte, which keeps surrogates out.
  split
  · have bits : code / 4096 % 16 + 224 - 224 = code / 4096 := by omega
    have first : step .between (UInt8.ofNat (code / 4096 % 16 + 224)).toNat =
        ([], .inside (code / 4096) 2 (if code / 4096 % 16 + 224 = 224 then 0xA0 else 0x80)
          (if code / 4096 % 16 + 224 = 237 then 0x9F else 0xBF)) := by
      rw [toNat_byte (by omega), step, begin, if_neg (by omega), if_neg (by omega),
        if_neg (by omega), if_pos (by omega), bits]
    have second : step (.inside (code / 4096) 2
          (if code / 4096 % 16 + 224 = 224 then 0xA0 else 0x80)
          (if code / 4096 % 16 + 224 = 237 then 0x9F else 0xBF))
          (UInt8.ofNat (code / 64 % 64 + 128)).toNat =
        ([], .inside (code / 64) 1 0x80 0xBF) := by
      rw [step_inside (by omega) (by constructor <;> split <;> omega), if_neg (by omega)]
    simp only [List.cons_append, List.nil_append, scan_of_step first, scan_of_step second,
      scan_of_step last]
  · have bits : code / 262144 % 8 + 240 - 240 = code / 262144 := by omega
    have first : step .between (UInt8.ofNat (code / 262144 % 8 + 240)).toNat =
        ([], .inside (code / 262144) 3 (if code / 262144 % 8 + 240 = 240 then 0x90 else 0x80)
          (if code / 262144 % 8 + 240 = 244 then 0x8F else 0xBF)) := by
      rw [toNat_byte (by omega), step, begin, if_neg (by omega), if_neg (by omega),
        if_neg (by omega), if_neg (by omega), if_pos (by omega), bits]
    have second : step (.inside (code / 262144) 3
          (if code / 262144 % 8 + 240 = 240 then 0x90 else 0x80)
          (if code / 262144 % 8 + 240 = 244 then 0x8F else 0xBF))
          (UInt8.ofNat (code / 4096 % 64 + 128)).toNat =
        ([], .inside (code / 4096) 2 0x80 0xBF) := by
      rw [step_inside (by omega) (by constructor <;> split <;> omega), if_neg (by omega)]
    simp only [List.cons_append, List.nil_append, scan_of_step first, scan_of_step second,
      scan_of_step third, scan_of_step last]

theorem scan_encodeChars (text : List Char) : scan .between (encodeChars text) = text.map some := by
  induction text with
  | nil => rfl
  | cons character later inductionHypothesis =>
      rw [encodeChars_cons, scan_char, inductionHypothesis, List.map_cons]

theorem decodeLossy_encodeChars (text : List Char) : decodeLossy (encodeChars text) = text := by
  rw [decodeLossy, scan_encodeChars, List.map_map]
  exact List.map_id text

theorem decode?_encodeChars (text : List Char) : decode? (encodeChars text) = some text := by
  rw [decode?, scan_encodeChars]
  induction text with
  | nil => rfl
  | cons character later inductionHypothesis => simp [inductionHypothesis]

/-- A byte of the first half stands for itself only. -/
theorem code_of_mem_char {character : Char} {byte : UInt8} (small : byte.toNat < 0x80)
    (member : byte ∈ String.utf8EncodeChar character) : character.val.toNat = byte.toNat := by
  unfold String.utf8EncodeChar at member
  generalize character.val.toNat = code at member
  dsimp only at member
  split at member
  · rw [List.mem_singleton.1 member, toNat_byte (by omega)]
  split at member
  · simp only [List.mem_cons, List.not_mem_nil, or_false] at member
    rcases member with rfl | rfl <;> rw [UInt8.toNat_ofNat'] at small <;> omega
  split at member
  · simp only [List.mem_cons, List.not_mem_nil, or_false] at member
    rcases member with rfl | rfl | rfl <;> rw [UInt8.toNat_ofNat'] at small <;> omega
  · simp only [List.mem_cons, List.not_mem_nil, or_false] at member
    rcases member with rfl | rfl | rfl | rfl <;> rw [UInt8.toNat_ofNat'] at small <;> omega

theorem eq_of_mem_char {character other : Char} {byte : UInt8} (small : byte.toNat < 0x80)
    (single : String.utf8EncodeChar character = [byte])
    (member : byte ∈ String.utf8EncodeChar other) : other = character := by
  have code := code_of_mem_char small (by rw [single]; exact List.mem_singleton_self byte)
  exact Char.ext (UInt32.toNat_inj.1 ((code_of_mem_char small member).trans code.symm))

/-- A character of the first half and its byte occur together. -/
theorem mem_encodeChars {character : Char} {byte : UInt8} (small : byte.toNat < 0x80)
    (single : String.utf8EncodeChar character = [byte]) (text : List Char) :
    byte ∈ encodeChars text ↔ character ∈ text := by
  rw [encodeChars, List.mem_flatMap]
  constructor
  · rintro ⟨other, inText, member⟩
    rwa [eq_of_mem_char small single member] at inText
  · exact fun inText => ⟨character, inText, by rw [single]; exact List.mem_singleton_self byte⟩

theorem char_newline : String.utf8EncodeChar '\n' = [newline] := rfl

theorem char_return : String.utf8EncodeChar '\r' = [carriageReturn] := rfl

theorem newline_mem (text : List Char) : newline ∈ encodeChars text ↔ '\n' ∈ text :=
  mem_encodeChars (by decide) char_newline text

theorem encodeChars_piece (first after : List Char) :
    encodeChars (first ++ '\n' :: after) = encodeChars first ++ newline :: encodeChars after := by
  rw [encodeChars_append, encodeChars_cons, char_newline, List.singleton_append]

/-- The lines of the bytes are the bytes of the lines. -/
theorem cut_encodeChars (text : List Char) :
    Cut.ended newline (encodeChars text) = (Cut.ended '\n' text).map encodeChars ∧
      Cut.rest newline (encodeChars text) = encodeChars (Cut.rest '\n' text) := by
  induction text using Cut.pieceInduction '\n' with
  | absent text absent =>
      have free : newline ∉ encodeChars text := fun member => absent ((newline_mem text).1 member)
      rw [Cut.ended_of_absent free, Cut.ended_of_absent absent, Cut.rest_of_absent free,
        Cut.rest_of_absent absent]
      exact ⟨rfl, rfl⟩
  | piece first after free inductionHypothesis =>
      have freeBytes : newline ∉ encodeChars first := fun member =>
        free ((newline_mem first).1 member)
      rw [encodeChars_piece, Cut.ended_of_piece freeBytes, Cut.rest_of_piece freeBytes,
        Cut.ended_of_piece free, Cut.rest_of_piece free, inductionHypothesis.1, List.map_cons]
      exact ⟨rfl, inductionHypothesis.2⟩

end Utf8

/-- At most one carriage return at the end is removed. -/
def dropOneReturn (line : List Char) : List Char :=
  if line.getLast? = some '\r' then line.dropLast else line

namespace Utf8

theorem dropReturn_encodeChars (line : List Char) :
    dropReturn (encodeChars line) = encodeChars (dropOneReturn line) := by
  rcases List.eq_nil_or_concat' line with rfl | ⟨earlier, last, rfl⟩
  · rfl
  rw [dropReturn, dropOneReturn, encodeChars_append, List.getLast?_concat]
  by_cases isReturn : last = '\r'
  · subst isReturn
    simp [char_return]
  · have bytes : encodeChars [last] ≠ [] := by
      simp
    have other : (encodeChars earlier ++ encodeChars [last]).getLast? ≠ some carriageReturn := by
      intro isLast
      rw [List.getLast?_append_of_ne_nil _ bytes] at isLast
      have inLast :=
        (mem_encodeChars (by decide) char_return [last]).1 (List.mem_of_getLast? isLast)
      exact isReturn (List.mem_singleton.1 inLast).symm
    rw [if_neg other, if_neg (by simpa using isReturn), encodeChars_append]

theorem decodeLine_encodeChars (line : List Char) :
    decodeLine (encodeChars line) = String.ofList (dropOneReturn line) := by
  rw [decodeLine, dropReturn_encodeChars, decodeLossy_encodeChars]

end Utf8

end BenchPrinter
