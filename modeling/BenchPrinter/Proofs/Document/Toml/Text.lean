import BenchPrinter.Document.Toml.Writer

/-!
Texts in TOML, written and read. Each of the four forms gives every text back that it is chosen for.
-/

namespace BenchPrinter.Toml

section

variable {mark character : Char} {text rest : List Char}

theorem le_longestRun (mark : Char) (run : Nat) (text : List Char) :
    run ≤ longestRun mark run text := by
  induction text generalizing run with
  | nil => exact Nat.le_refl run
  | cons character text inductionHypothesis =>
      rw [longestRun]
      split
      · exact Nat.le_of_succ_le (inductionHypothesis (run + 1))
      · exact Nat.le_max_left ..

theorem absent_of_longestRun (none : longestRun mark 0 text = 0) : mark ∉ text := by
  induction text with
  | nil => exact List.not_mem_nil
  | cons character text inductionHypothesis =>
      rw [longestRun] at none
      split at none
      · have one := le_longestRun mark (0 + 1) text
        omega
      · rename_i different
        have later := inductionHypothesis (by omega)
        exact List.not_mem_cons_of_ne_of_not_mem (Ne.symm different) later

theorem printable_of_not_control (control : isControl character = false)
    (noLineEnd : character ≠ '\n') : isPrintable character = true := by
  simp only [isControl, isPrintable, Bool.or_eq_false_iff, Bool.and_eq_false_iff,
    decide_eq_false_iff_not, Bool.or_eq_true, Bool.and_eq_true, decide_eq_true_eq] at control ⊢
  obtain ⟨(large | tab) | lineEnd, other⟩ := control
  · exact .inr ⟨by omega, other⟩
  · exact .inl (by simpa using tab)
  · exact absurd (by simpa using lineEnd) noLineEnd

/-! A literal text has no escapes. -/

theorem literal?_append (printable : ∀ character ∈ text, isPrintable character = true)
    (absent : '\x27' ∉ text) (rest : List Char) :
    literal? (text ++ '\x27' :: rest) = some (text, rest) := by
  induction text with
  | nil => rfl
  | cons character text inductionHypothesis =>
      obtain ⟨different, absent⟩ := not_or.1 (mt List.mem_cons.2 absent)
      rw [List.cons_append, literal?]
      · rw [if_pos (printable character List.mem_cons_self), inductionHypothesis
          (fun other member => printable other (List.mem_cons_of_mem _ member)) absent]
        rfl
      · exact fun same => different same.symm

/-- A character of a block is passed unless two apostrophes follow it. -/
theorem literalBlock?_cons (allowed : isPrintable character = true ∨ character = '\n')
    (noReturn : character ≠ '\r')
    (single : character = '\x27' → ∀ others, rest ≠ '\x27' :: '\x27' :: others) :
    literalBlock? (character :: rest) = Reader.prepend character (literalBlock? rest) := by
  rw [literalBlock?]
  · exact if_pos allowed
  · exact fun _ first same => single first _ same
  · exact fun _ first same => single first _ same
  · exact fun _ first same => single first _ same
  · exact fun _ first _ => noReturn first

/-- Among at most two apostrophes the closing ones are told apart. -/
theorem literalBlock?_append {run : Nat} (few : longestRun '\x27' run text ≤ 2)
    (plain : ∀ character ∈ text, isControl character = false) (rest : List Char) :
    literalBlock? (text ++ '\x27' :: '\x27' :: '\x27' :: '\n' :: rest) =
      some (text, '\n' :: rest) := by
  induction text generalizing run with
  | nil => rfl
  | cons character text inductionHypothesis =>
      have plainRest : ∀ other ∈ text, isControl other = false :=
        fun other member => plain other (List.mem_cons_of_mem _ member)
      have control := plain character List.mem_cons_self
      have allowed : isPrintable character = true ∨ character = '\n' := by
        by_cases lineEnd : character = '\n'
        · exact .inr lineEnd
        · exact .inl (printable_of_not_control control lineEnd)
      have noReturn : character ≠ '\r' := by
        rintro rfl
        exact absurd control (by decide)
      have fewRest : ∃ run, longestRun '\x27' run text ≤ 2 := by
        rw [longestRun] at few
        split at few
        · exact ⟨_, few⟩
        · exact ⟨0, Nat.le_trans (Nat.le_max_right ..) few⟩
      obtain ⟨_, fewRest⟩ := fewRest
      have step (single : character = '\x27' → ∀ others,
          text ++ '\x27' :: '\x27' :: '\x27' :: '\n' :: rest ≠ '\x27' :: '\x27' :: others) :
          literalBlock? (character :: text ++ '\x27' :: '\x27' :: '\x27' :: '\n' :: rest) =
            some (character :: text, '\n' :: rest) := by
        rw [List.cons_append, literalBlock?_cons allowed noReturn single,
          inductionHypothesis fewRest plainRest]
        rfl
      by_cases apostrophe : character = '\x27'
      · subst apostrophe
        rw [longestRun, if_pos rfl] at few
        -- One or two apostrophes at the end of the text are read with the closing ones.
        rcases text with _ | ⟨second, _ | ⟨third, text⟩⟩
        · rfl
        · by_cases again : second = '\x27'
          · subst again
            rfl
          · exact step fun _ _ same => again (List.cons.inj same).1
        · refine step fun _ others same => ?_
          have secondSame := (List.cons.inj same).1
          have thirdSame := (List.cons.inj (List.cons.inj same).2).1
          rw [secondSame, thirdSame, longestRun, if_pos rfl, longestRun, if_pos rfl] at few
          have three := le_longestRun '\x27' (run + 1 + 1 + 1) text
          omega
      · exact step fun same => absurd same apostrophe

/-! A quoted text escapes what a reader would take for something else. -/

theorem readHex_upper : ∀ code < 0x80,
    readHex 0 ((lastDigits 16 4 code).map Char.toUpper) = some code := by
  decide

theorem code_of_control (control : isControl character = true) : character.toNat < 0x80 := by
  simp only [isControl, Bool.or_eq_true, Bool.and_eq_true, decide_eq_true_eq] at control
  omega

theorem codePoint?_upper {first second third fourth : Char} (control : isControl character = true)
    (digits : (lastDigits 16 4 character.toNat).map Char.toUpper =
      [first, second, third, fourth]) :
    codePoint? [first, second, third, fourth] = some character := by
  have hex := readHex_upper _ (code_of_control control)
  rw [digits] at hex
  rw [codePoint?, hex]
  exact (if_pos character.valid).trans (congrArg some (Char.ofNat_toNat character))

theorem upper_four (number : Nat) : ∃ first second third fourth,
    (lastDigits 16 4 number).map Char.toUpper = [first, second, third, fourth] :=
  ⟨_, _, _, _, rfl⟩

theorem quoted?_escape (noQuote : character ≠ '"') (rest : List Char) :
    quoted? (escape false character ++ rest) = Reader.prepend character (quoted? rest) := by
  unfold escape
  split
  · rfl
  · rfl
  · rfl
  · rfl
  · rfl
  · rfl
  · rename_i backslash backspace feed lineEnd carriage tab
    by_cases control : isControl character = true
    · obtain ⟨first, second, third, fourth, digits⟩ := upper_four character.toNat
      have code := codePoint?_upper control digits
      rw [if_pos control, digits, List.cons_append, List.cons_append, List.cons_append,
        List.cons_append, List.cons_append, List.cons_append, List.nil_append, quoted?, code]
    · have printable := printable_of_not_control (Bool.eq_false_iff.2 control) lineEnd
      rw [if_neg control, List.cons_append, List.nil_append, quoted?]
      · exact if_pos ⟨backslash, printable⟩
      · exact noQuote
      · exact fun _ _ _ _ _ same _ => backslash same
      · exact fun _ _ _ _ _ _ _ _ _ same _ => backslash same
      · exact fun _ _ same _ => backslash same

theorem quoted?_escapeAll (run : Nat) (text rest : List Char) :
    quoted? (escapeAll false run text ++ '"' :: rest) = some (text, rest) := by
  induction text generalizing run with
  | nil => rfl
  | cons character text inductionHypothesis =>
      rw [escapeAll]
      by_cases quote : character = '"'
      · rw [if_pos quote, Bool.false_and, if_neg Bool.false_ne_true, quote]
        change Reader.prepend '"' (quoted? (escapeAll false 0 text ++ '"' :: rest)) = _
        rw [inductionHypothesis]
        rfl
      · rw [if_neg quote, List.append_assoc, quoted?_escape quote, inductionHypothesis]
        rfl

/-- A character is written after a backslash, or as it is when it is no control character. -/
theorem escape_head (inBlock : Bool) (character : Char) :
    ∃ first others, escape inBlock character = first :: others ∧
      (first = '\\' ∨ first = character ∧ isControl character = false) := by
  unfold escape
  split
  · exact ⟨_, _, rfl, .inl rfl⟩
  · exact ⟨_, _, rfl, .inl rfl⟩
  · exact ⟨_, _, rfl, .inl rfl⟩
  · split
    · exact ⟨_, _, rfl, .inr ⟨rfl, by decide⟩⟩
    · exact ⟨_, _, rfl, .inl rfl⟩
  · exact ⟨_, _, rfl, .inl rfl⟩
  · exact ⟨_, _, rfl, .inl rfl⟩
  · split
    · exact ⟨_, _, rfl, .inl rfl⟩
    · rename_i plain
      exact ⟨_, _, rfl, .inr ⟨rfl, Bool.eq_false_iff.2 plain⟩⟩

/-- A character of a block is passed unless two more quotes follow a quote. -/
theorem quotedBlock?_cons (allowed : isPrintable character = true ∨ character = '\n')
    (noReturn : character ≠ '\r') (noBackslash : character ≠ '\\')
    (single : character = '"' → ∀ others, rest ≠ '"' :: '"' :: others) :
    quotedBlock? false (character :: rest) =
      Reader.prepend character (quotedBlock? false rest) := by
  rw [quotedBlock?]
  · rw [if_neg (fun joining => Bool.false_ne_true joining.1), if_pos ⟨noBackslash, allowed⟩]
  · exact fun _ first same => single first _ same
  · exact fun _ first same => single first _ same
  · exact fun _ first same => single first _ same
  · exact fun _ first _ => noReturn first
  · exact fun _ _ _ _ _ first _ => noBackslash first
  · exact fun _ _ _ _ _ _ _ _ _ first _ => noBackslash first
  · exact fun _ _ first _ => noBackslash first

theorem quotedBlock?_escape (noQuote : character ≠ '"') (rest : List Char) :
    quotedBlock? false (escape true character ++ rest) =
      Reader.prepend character (quotedBlock? false rest) := by
  unfold escape
  split
  · rfl
  · rfl
  · rfl
  · exact quotedBlock?_cons (.inr rfl) (by decide) (by decide) fun same => absurd same (by decide)
  · rfl
  · rfl
  · rename_i backslash backspace feed lineEnd carriage tab
    by_cases control : isControl character = true
    · obtain ⟨first, second, third, fourth, digits⟩ := upper_four character.toNat
      have code := codePoint?_upper control digits
      rw [if_pos control, digits, List.cons_append, List.cons_append, List.cons_append,
        List.cons_append, List.cons_append, List.cons_append, List.nil_append, quotedBlock?, code]
    · have printable := printable_of_not_control (Bool.eq_false_iff.2 control) lineEnd
      rw [if_neg control, List.cons_append, List.nil_append]
      exact quotedBlock?_cons (.inl printable) carriage backslash fun same => absurd same noQuote

/-- Outside a block, after two quotes in a row, and in front of another character no quote is
written. -/
theorem escapeAll_head (inBlock : Bool) (run : Nat) (character : Char) (text : List Char)
    (full : character = '"' → inBlock = false ∨ 2 ≤ run) :
    ∃ first others, escapeAll inBlock run (character :: text) = first :: others ∧
      first ≠ '"' := by
  rw [escapeAll]
  by_cases quote : character = '"'
  · have noRoom : (inBlock && decide (run < 2)) = false := by
      rw [Bool.and_eq_false_iff, decide_eq_false_iff_not, Nat.not_lt]
      exact full quote
    rw [if_pos quote, noRoom, if_neg Bool.false_ne_true]
    exact ⟨_, _, rfl, by decide⟩
  · obtain ⟨first, others, form, written⟩ := escape_head inBlock character
    rw [if_neg quote, form]
    refine ⟨first, _, rfl, ?_⟩
    rcases written with rfl | ⟨rfl, -⟩
    · decide
    · exact quote

theorem quotedBlock?_escapeAll (run : Nat) (text rest : List Char) :
    quotedBlock? false (escapeAll true run text ++ '"' :: '"' :: '"' :: '\n' :: rest) =
      some (text, '\n' :: rest) := by
  induction text generalizing run with
  | nil => rfl
  | cons character text inductionHypothesis =>
      by_cases quote : character = '"'
      · subst quote
        rw [escapeAll, if_pos rfl]
        by_cases room : run < 2
        · rw [if_pos (by simpa using room), List.cons_append]
          have step (single : ∀ others, escapeAll true (run + 1) text ++
              '"' :: '"' :: '"' :: '\n' :: rest ≠ '"' :: '"' :: others) :
              quotedBlock? false ('"' :: (escapeAll true (run + 1) text ++
                '"' :: '"' :: '"' :: '\n' :: rest)) = some ('"' :: text, '\n' :: rest) := by
            rw [quotedBlock?_cons (.inl rfl) (by decide) (by decide) fun _ => single,
              inductionHypothesis]
            rfl
          -- One or two quotes at the end of the text are read with the closing ones.
          rcases text with _ | ⟨second, text⟩
          · rfl
          · by_cases again : second = '"' ∧ run = 0
            · obtain ⟨rfl, rfl⟩ := again
              rcases text with _ | ⟨third, text⟩
              · rfl
              · obtain ⟨first, others, form, noQuote⟩ :=
                  escapeAll_head true 2 third text
                    fun _ => .inr (Nat.le_refl 2)
                refine step fun _ same => ?_
                have second : escapeAll true 1 ('"' :: third :: text) =
                    '"' :: escapeAll true 2 (third :: text) := rfl
                rw [Nat.zero_add, second, form] at same
                exact noQuote (List.cons.inj (List.cons.inj same).2).1
            · obtain ⟨first, others, form, noQuote⟩ :=
                escapeAll_head true (run + 1) second text
                  fun same => .inr (by
                    have notFirst : run ≠ 0 := fun none => again ⟨same, none⟩
                    omega)
              refine step fun _ same => ?_
              rw [form] at same
              exact noQuote (List.cons.inj same).1
        · rw [if_neg (by simpa using room)]
          change Reader.prepend '"' (quotedBlock? false (escapeAll true 0 text ++ _)) = _
          rw [inductionHypothesis]
          rfl
      · rw [escapeAll, if_neg quote, List.append_assoc, quotedBlock?_escape quote,
          inductionHypothesis]
        rfl

theorem dropLineBreak_cons (noLineEnd : character ≠ '\n') (noReturn : character ≠ '\r')
    (rest : List Char) : dropLineBreak (character :: rest) = character :: rest := by
  rw [dropLineBreak, lineBreak?]
  · rfl
  · exact fun _ same => noLineEnd (List.cons.inj same).1
  · exact fun _ same => noReturn (List.cons.inj same).1

/-- The line end that a block of several lines begins with is dropped, and no other. -/
theorem dropLineBreak_escapeAll (text rest : List Char) :
    dropLineBreak ((if text.contains '\n' then ['\n'] else []) ++
      (escapeAll true 0 text ++ '"' :: rest)) = escapeAll true 0 text ++ '"' :: rest := by
  split
  · rfl
  · rename_i single
    rw [List.contains_iff_mem] at single
    rw [List.nil_append]
    rcases text with _ | ⟨character, text⟩
    · exact dropLineBreak_cons (by decide) (by decide) rest
    · rw [escapeAll]
      by_cases quote : character = '"'
      · rw [if_pos quote]
        split <;> exact dropLineBreak_cons (by decide) (by decide) _
      · obtain ⟨first, others, form, written⟩ := escape_head true character
        rw [if_neg quote, form]
        rcases written with rfl | ⟨rfl, plain⟩
        · exact dropLineBreak_cons (by decide) (by decide) _
        · refine dropLineBreak_cons (fun same => ?_) (fun same => ?_) _
          · exact single (same ▸ List.mem_cons_self)
          · rw [same] at plain
            exact absurd plain (by decide)

theorem dropLineBreak_literal (plain : ∀ character ∈ text, isControl character = false)
    (rest : List Char) :
    dropLineBreak ((if text.contains '\n' then ['\n'] else []) ++ (text ++ '\x27' :: rest)) =
      text ++ '\x27' :: rest := by
  split
  · rfl
  · rename_i single
    rw [List.contains_iff_mem] at single
    rw [List.nil_append]
    rcases text with _ | ⟨character, text⟩
    · exact dropLineBreak_cons (by decide) (by decide) rest
    · refine dropLineBreak_cons (fun same => ?_) (fun same => ?_) _
      · exact single (same ▸ List.mem_cons_self)
      · have control := plain character List.mem_cons_self
        rw [same] at control
        exact absurd control (by decide)

theorem Shape.of_literal {shape : Shape} (form : shape.form = .literal) :
    shape.hasControls = false ∧ shape.hasNewline = false ∧ shape.apostropheRun = 0 := by
  unfold Shape.form at form
  dsimp only at form
  split at form
  · exact absurd form (by decide)
  · split at form
    · rename_i chosen
      simpa [and_assoc] using chosen
    · split at form
      · exact absurd form (by decide)
      · split at form
        · exact absurd form (by decide)
        · split at form <;> exact absurd form (by decide)

theorem Shape.of_literalBlock {shape : Shape} (form : shape.form = .literalBlock) :
    shape.hasControls = false ∧ shape.apostropheRun ≤ 2 := by
  unfold Shape.form at form
  dsimp only at form
  split at form
  · exact absurd form (by decide)
  · split at form
    · exact absurd form (by decide)
    · split at form
      · exact absurd form (by decide)
      · split at form
        · rename_i chosen
          simpa using chosen
        · split at form <;> exact absurd form (by decide)

theorem plain_of_hasControls (none : (Shape.ofText text).hasControls = false) :
    ∀ character ∈ text, isControl character = false := by
  intro character member
  exact Bool.eq_false_iff.2 (List.any_eq_false.1 none character member)

/-- A text is read back from the form it is written in. -/
theorem text?_writeText (text rest : List Char) :
    text? (writeText text ++ '\n' :: rest) = some (text, '\n' :: rest) := by
  rw [writeText]
  cases form : (Shape.ofText text).form with
  | quoted =>
      have read := quoted?_escapeAll 0 text ('\n' :: rest)
      simp only [List.cons_append, List.append_assoc, List.nil_append]
      rw [text?]
      · exact read
      · intro others same
        rcases text with _ | ⟨character, text⟩
        · exact absurd (List.cons.inj (List.cons.inj same).2).1 (by decide)
        · obtain ⟨first, tail, written, noQuote⟩ :=
            escapeAll_head false 0 character text
              fun _ => .inl rfl
          rw [written] at same
          exact noQuote (List.cons.inj same).1
  | literal =>
      obtain ⟨controls, newline, apostrophes⟩ := Shape.of_literal form
      have plain := plain_of_hasControls controls
      have single : '\n' ∉ text := fun member => Bool.false_ne_true
        (newline.symm.trans (List.contains_iff_mem.2 member))
      have absent := absent_of_longestRun apostrophes
      have read := literal?_append (fun character member => printable_of_not_control
        (plain character member) fun same => single (same ▸ member)) absent ('\n' :: rest)
      simp only [List.cons_append, List.append_assoc, List.nil_append]
      rw [text?]
      · exact read
      · intro others same
        rcases text with _ | ⟨character, text⟩
        · exact absurd form (by decide)
        · exact absent ((List.cons.inj same).1 ▸ List.mem_cons_self)
  | quotedBlock =>
      have read := quotedBlock?_escapeAll 0 text rest
      have dropped := dropLineBreak_escapeAll text ('"' :: '"' :: '\n' :: rest)
      simp only [List.cons_append, List.append_assoc, List.nil_append]
      rw [text?]
      exact (congrArg (quotedBlock? false) dropped).trans read
  | literalBlock =>
      obtain ⟨controls, few⟩ := Shape.of_literalBlock form
      have plain := plain_of_hasControls controls
      have read := literalBlock?_append few plain rest
      have dropped := dropLineBreak_literal plain ('\x27' :: '\x27' :: '\n' :: rest)
      simp only [List.cons_append, List.append_assoc, List.nil_append]
      rw [text?]
      exact (congrArg literalBlock? dropped).trans read

end

end BenchPrinter.Toml
