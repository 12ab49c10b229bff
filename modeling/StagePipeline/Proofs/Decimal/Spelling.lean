import StagePipeline.Proofs.Decimal.Magnitude

/-!
# How numbers are written

The grammar of literals is given by what they are put together from: a sign, digits with a
point, and a power of ten.  Reading takes exactly these texts and finds the parts again,
because the first character behind each part tells where it ends.  Besides literals there
are words for what is not a finite number, and no text is both.
-/

namespace StagePipeline
namespace Decimal

/-! ## The grammar -/

/-- A sign, which may be left out. -/
inductive Mark where
  | none
  | plus
  | minus

namespace Mark

/-- How a sign is written. -/
def text : Mark → List Char
  | none => []
  | plus => ['+']
  | minus => ['-']

/-- Whether a sign makes a number negative. -/
def isNegative : Mark → Bool
  | minus => true
  | none | plus => false

end Mark

/-- A power of ten: a letter e, a sign, and at least one digit. -/
structure Scale where
  letter : Char
  mark : Mark
  digits : List Char
  isLetter : letter = 'e' ∨ letter = 'E'
  hasDigit : digits ≠ []
  areDigits : AreDigits digits

namespace Scale

/-- How a power of ten is written, if there is one. -/
def text : Option Scale → List Char
  | none => []
  | some scale => scale.letter :: (scale.mark.text ++ scale.digits)

/-- The exponent of a power of ten, if there is one. -/
def exponent : Option Scale → Int
  | none => 0
  | some scale =>
      if scale.mark.isNegative then -(numberOf scale.digits : Int) else numberOf scale.digits

end Scale

/-- How the digits of a fraction are written, if there is a point. -/
def pointed : Option (List Char) → List Char
  | none => []
  | some fraction => '.' :: fraction

/-- A literal as it is written: a sign, at least one digit, a point before, between or behind
the digits or none at all, and possibly a power of ten. -/
structure Spelling where
  mark : Mark
  whole : List Char
  fraction? : Option (List Char)
  scale? : Option Scale
  areDigits : AreDigits (whole ++ fraction?.getD [])
  hasDigit : whole ++ fraction?.getD [] ≠ []

namespace Spelling

/-- The digits behind the point. -/
def fraction (spelling : Spelling) : List Char :=
  spelling.fraction?.getD []

/-- The text of a literal. -/
def text (spelling : Spelling) : List Char :=
  spelling.mark.text ++
    (spelling.whole ++ (pointed spelling.fraction? ++ Scale.text spelling.scale?))

/-- Whether a literal has a minus sign. -/
def isNegative (spelling : Spelling) : Bool :=
  spelling.mark.isNegative

/-- The size of the number that a literal stands for. -/
def size (spelling : Spelling) : ℚ :=
  (numberOf spelling.whole + numberOf spelling.fraction / 10 ^ spelling.fraction.length) *
    10 ^ Scale.exponent spelling.scale?

/-- What is kept of a literal when it is read. -/
def literal (spelling : Spelling) : Literal :=
  ⟨spelling.isNegative, spelling.whole ++ spelling.fraction,
    Scale.exponent spelling.scale? - spelling.fraction.length⟩

theorem size_nonneg (spelling : Spelling) : 0 ≤ spelling.size := by
  unfold size
  positivity

/-- The size of the number is kept. -/
theorem size_literal (spelling : Spelling) : spelling.literal.size = spelling.size := by
  rw [Literal.size, Literal.coefficient, literal, size, digitsValue_eq, numberOf_append,
    zpow_sub₀ (by decide), zpow_natCast]
  push_cast
  field_simp

end Spelling

/-- The words for what is not a finite number, in small letters. -/
def words : List (List Char) :=
  ["inf".toList, "infinity".toList, "nan".toList]

/-- Whether a text is one of the words, in letters of any case and behind any sign. -/
def IsWord (text : List Char) : Prop :=
  ∃ (mark : Mark) (letters : List Char),
    mark.text ++ letters = text ∧ letters.map Char.toLower ∈ words

/-! ## Signs -/

section Signs

variable {text rest : List Char}

/-- What is read as a sign is one, and what is behind it is the rest. -/
theorem exists_splitSign (text : List Char) :
    ∃ (mark : Mark) (rest : List Char),
      mark.text ++ rest = text ∧ splitSign text = (mark.isNegative, rest) := by
  unfold splitSign
  split
  · exact ⟨.minus, _, rfl, rfl⟩
  · exact ⟨.plus, _, rfl, rfl⟩
  · exact ⟨.none, _, rfl, rfl⟩

/-- A text does not begin with a sign. -/
def IsUnsigned (text : List Char) : Prop :=
  ∀ character ∈ text.head?, character ≠ '-' ∧ character ≠ '+'

/-- A sign is read back in front of what has none. -/
theorem splitSign_append (mark : Mark) (isUnsigned : IsUnsigned rest) :
    splitSign (mark.text ++ rest) = (mark.isNegative, rest) := by
  cases mark with
  | minus | plus => rfl
  | none =>
      change splitSign rest = (false, rest)
      unfold splitSign
      split
      · exact absurd rfl (isUnsigned '-' rfl).1
      · exact absurd rfl (isUnsigned '+' rfl).2
      · rfl

end Signs

/-! ## Digits -/

section Digits

variable
  {digits further text rest : List Char}
  {fraction? : Option (List Char)}

/-- A run of digits ends where a text begins: it does not begin with a digit. -/
def EndsDigits (text : List Char) : Prop :=
  ∀ character ∈ text.head?, character.isDigit = false

/-- Digits are read back in front of what is none. -/
theorem leadingDigits_append (areDigits : AreDigits digits) (ends : EndsDigits rest) :
    leadingDigits (digits ++ rest) = digits := by
  rw [leadingDigits, List.takeWhile_append_of_pos areDigits]
  cases rest with
  | nil => exact List.append_nil digits
  | cons character rest =>
      rw [List.takeWhile_cons_of_neg (by simp [ends character rfl]), List.append_nil]

/-- What follows the digits is found behind them. -/
theorem afterDigits_append (areDigits : AreDigits digits) (ends : EndsDigits rest) :
    afterDigits (digits ++ rest) = rest := by
  rw [afterDigits, List.dropWhile_append_of_pos areDigits]
  cases rest with
  | nil => rfl
  | cons character rest => exact List.dropWhile_cons_of_neg (by simp [ends character rfl])

theorem areDigits_leadingDigits (text : List Char) : AreDigits (leadingDigits text) :=
  fun _ present => List.mem_takeWhile_imp present

theorem leadingDigits_append_afterDigits (text : List Char) :
    leadingDigits text ++ afterDigits text = text :=
  List.takeWhile_append_dropWhile

theorem areDigits_append :
    AreDigits (digits ++ further) ↔ AreDigits digits ∧ AreDigits further :=
  List.forall_mem_append

theorem not_sign_of_isDigit
    {digit : Char}
    (isDigit : digit.isDigit = true) :
    digit ≠ '-' ∧ digit ≠ '+' := by
  refine ⟨?_, ?_⟩
  · rintro rfl
    cases isDigit
  · rintro rfl
    cases isDigit

theorem isUnsigned_of_areDigits (areDigits : AreDigits digits) : IsUnsigned digits :=
  fun character first => not_sign_of_isDigit (areDigits character (List.mem_of_mem_head? first))

/-- What is read as a fraction is one, and what is behind it is the rest. -/
theorem exists_splitFraction (text : List Char) :
    ∃ (fraction? : Option (List Char)) (rest : List Char),
      pointed fraction? ++ rest = text ∧ AreDigits (fraction?.getD []) ∧
        splitFraction text = (fraction?.getD [], rest) := by
  unfold splitFraction
  split
  · rename_i rest
    exact ⟨some (leadingDigits rest), afterDigits rest,
      congrArg _ (leadingDigits_append_afterDigits rest), areDigits_leadingDigits rest, rfl⟩
  · exact ⟨none, _, rfl, nofun, rfl⟩

/-- A fraction is read back, with its point or without. -/
theorem splitFraction_append
    (areDigits : AreDigits (fraction?.getD []))
    (ends : EndsDigits rest)
    (unpointed : '.' ∉ rest.head?) :
    splitFraction (pointed fraction? ++ rest) = (fraction?.getD [], rest) := by
  cases fraction? with
  | some fraction =>
      exact Prod.ext (leadingDigits_append areDigits ends) (afterDigits_append areDigits ends)
  | none =>
      change splitFraction rest = ([], rest)
      unfold splitFraction
      split
      · exact absurd rfl unpointed
      · rfl

end Digits

/-! ## Powers of ten -/

section Scales

variable
  {text digits : List Char}
  {exponent : Int}

/-- A scale begins with its letter. -/
theorem Scale.head_text (scale? : Option Scale) :
    ∀ character ∈ (Scale.text scale?).head?, character = 'e' ∨ character = 'E' := by
  intro character first
  cases scale? with
  | none => cases first
  | some scale =>
      cases first
      exact scale.isLetter

theorem Scale.endsDigits_text (scale? : Option Scale) : EndsDigits (Scale.text scale?) := by
  intro character first
  rcases Scale.head_text scale? character first with rfl | rfl
  · rfl
  · rfl

theorem Scale.unpointed_text (scale? : Option Scale) : '.' ∉ (Scale.text scale?).head? := by
  intro first
  rcases Scale.head_text scale? '.' first with same | same
  · cases same
  · cases same

/-- What may follow the digits: a letter, a sign and digits. -/
theorem exponent?_cons (letter : Char) (rest : List Char) :
    exponent? (letter :: rest) =
      if letter = 'e' ∨ letter = 'E' then
        if (splitSign rest).2.isEmpty || !(splitSign rest).2.all Char.isDigit then none
        else if (splitSign rest).1 then some (-(digitsValue (splitSign rest).2 : Int))
        else some (digitsValue (splitSign rest).2 : Int)
      else none :=
  rfl

/-- Nothing but digits, and at least one of them. -/
theorem isDigits_iff :
    (digits.isEmpty || !digits.all Char.isDigit) = false ↔ digits ≠ [] ∧ AreDigits digits := by
  simp [AreDigits]

/-- A text is read as an exponent exactly if it is how a power of ten is written. -/
theorem exponent?_eq_some_iff :
    exponent? text = some exponent ↔
      ∃ scale?, Scale.text scale? = text ∧ Scale.exponent scale? = exponent := by
  constructor
  · intro read
    cases text with
    | nil => exact ⟨none, rfl, Option.some.inj read⟩
    | cons letter rest =>
        obtain ⟨mark, digits, rfl, split⟩ := exists_splitSign rest
        simp only [exponent?_cons, split] at read
        split at read
        · rename_i isLetter
          split at read
          · cases read
          · rename_i isDigits
            obtain ⟨hasDigit, areDigits⟩ := isDigits_iff.mp (Bool.eq_false_iff.mpr isDigits)
            refine ⟨some ⟨letter, mark, digits, isLetter, hasDigit, areDigits⟩, rfl, ?_⟩
            rw [← apply_ite some, digitsValue_eq] at read
            exact Option.some.inj read
        · cases read
  · rintro ⟨scale?, rfl, rfl⟩
    cases scale? with
    | none => rfl
    | some scale =>
        have split := splitSign_append scale.mark (isUnsigned_of_areDigits scale.areDigits)
        have isDigits := isDigits_iff.mpr ⟨scale.hasDigit, scale.areDigits⟩
        rw [Scale.text, exponent?_cons, if_pos scale.isLetter, split]
        simp only [isDigits, Bool.false_eq_true, if_false]
        rw [← apply_ite some, digitsValue_eq, Scale.exponent]

end Scales

/-! ## Literals -/

section Literals

variable
  {text : List Char}
  {literal : Literal}

/-- What is behind the sign of a literal begins with a digit or a point. -/
theorem Spelling.head_unsigned (spelling : Spelling) :
    ∃ character rest,
      spelling.whole ++ (pointed spelling.fraction? ++ Scale.text spelling.scale?) =
          character :: rest ∧
        (character.isDigit = true ∨ character = '.') := by
  obtain ⟨-, whole, fraction?, scale?, areDigits, hasDigit⟩ := spelling
  cases whole with
  | cons digit rest => exact ⟨digit, _, rfl, Or.inl (areDigits digit List.mem_cons_self)⟩
  | nil =>
      cases fraction? with
      | some fraction => exact ⟨'.', _, rfl, Or.inr rfl⟩
      | none => exact absurd rfl hasDigit

/-- The sign of a spelling is found, and what follows it is left. -/
theorem Spelling.splitSign_text (spelling : Spelling) :
    splitSign spelling.text =
      (spelling.isNegative,
        spelling.whole ++ (pointed spelling.fraction? ++ Scale.text spelling.scale?)) := by
  refine splitSign_append spelling.mark fun character first => ?_
  obtain ⟨leading, rest, same, kind⟩ := spelling.head_unsigned
  rw [same] at first
  cases first
  rcases kind with isDigit | rfl
  · exact not_sign_of_isDigit isDigit
  · decide

theorem Spelling.text_ne_nil (spelling : Spelling) : spelling.text ≠ [] := by
  intro none
  have split := spelling.splitSign_text
  obtain ⟨character, rest, leading, -⟩ := spelling.head_unsigned
  rw [none, leading] at split
  cases congrArg Prod.snd split

/-- The digits before the point end with it, or with the power of ten. -/
theorem endsDigits_pointed (fraction? : Option (List Char)) (scale? : Option Scale) :
    EndsDigits (pointed fraction? ++ Scale.text scale?) := by
  cases fraction? with
  | none => exact Scale.endsDigits_text scale?
  | some fraction =>
      intro character first
      cases first
      rfl

theorem isEmpty_and_isEmpty_iff
    {whole fraction : List Char} :
    (whole.isEmpty && fraction.isEmpty) = true ↔ whole ++ fraction = [] := by
  rw [Bool.and_eq_true, List.isEmpty_iff, List.isEmpty_iff, List.append_eq_nil_iff]

/-- A literal is read in three parts: the sign, the digits and the scale. -/
theorem Literal.parse?_eq (text : List Char) :
    Literal.parse? text =
      if (leadingDigits (splitSign text).2).isEmpty &&
          (splitFraction (afterDigits (splitSign text).2)).1.isEmpty then none
      else
        (exponent? (splitFraction (afterDigits (splitSign text).2)).2).map fun exponent =>
          ⟨(splitSign text).1,
            leadingDigits (splitSign text).2 ++
              (splitFraction (afterDigits (splitSign text).2)).1,
            exponent - (splitFraction (afterDigits (splitSign text).2)).1.length⟩ :=
  rfl

/-- A text is read as a literal exactly if it is how one is written.  Each part ends where the
next one begins, so that it is found again. -/
theorem Literal.parse?_eq_some_iff :
    Literal.parse? text = some literal ↔
      ∃ spelling : Spelling, spelling.text = text ∧ spelling.literal = literal := by
  rw [Literal.parse?_eq]
  constructor
  · intro read
    obtain ⟨mark, unsigned, rfl, split⟩ := exists_splitSign text
    rw [split] at read
    obtain ⟨fraction?, rest, after, areDigits, splitFraction⟩ :=
      exists_splitFraction (afterDigits unsigned)
    rw [splitFraction] at read
    split at read
    · cases read
    · rename_i hasDigit
      obtain ⟨exponent, readExponent, rfl⟩ := Option.map_eq_some_iff.mp read
      obtain ⟨scale?, rfl, rfl⟩ := exponent?_eq_some_iff.mp readExponent
      refine ⟨⟨mark, leadingDigits unsigned, fraction?, scale?,
        areDigits_append.mpr ⟨areDigits_leadingDigits unsigned, areDigits⟩, ?_⟩, ?_, rfl⟩
      · exact mt isEmpty_and_isEmpty_iff.mpr hasDigit
      · rw [Spelling.text, after, leadingDigits_append_afterDigits]
  · rintro ⟨spelling, rfl, rfl⟩
    obtain ⟨areDigits, fractionDigits⟩ := areDigits_append.mp spelling.areDigits
    have ends := endsDigits_pointed spelling.fraction? spelling.scale?
    rw [spelling.splitSign_text]
    simp only [leadingDigits_append areDigits ends, afterDigits_append areDigits ends,
      splitFraction_append fractionDigits (Scale.endsDigits_text spelling.scale?)
        (Scale.unpointed_text spelling.scale?),
      exponent?_eq_some_iff.mpr ⟨spelling.scale?, rfl, rfl⟩]
    rw [if_neg (mt isEmpty_and_isEmpty_iff.mp spelling.hasDigit)]
    rfl

end Literals

/-! ## Words -/

section Words

variable
  {text letters : List Char}
  {numeral : Numeral}

/-- A character that is neither a sign nor a point nor a digit, as the first letters of words
are. -/
def IsLetter (character : Char) : Prop :=
  (character ≠ '-' ∧ character ≠ '+') ∧ character ≠ '.' ∧ character.isDigit = false

/-- Digits, signs and points have no small letters. -/
theorem isLetter_of_toLower
    {letter : Char}
    (small : letter.toLower = 'i' ∨ letter.toLower = 'n') :
    IsLetter letter := by
  have apart (other : Char) (none : ¬(other.toLower = 'i' ∨ other.toLower = 'n')) :
      letter ≠ other := by
    rintro rfl
    exact none small
  refine ⟨⟨apart '-' (by decide), apart '+' (by decide)⟩, apart '.' (by decide), ?_⟩
  by_contra isDigit
  rw [Bool.not_eq_false] at isDigit
  have same : letter.toLower = letter := by
    rw [Char.isDigit, Bool.and_eq_true, decide_eq_true_eq, decide_eq_true_eq] at isDigit
    refine dif_neg fun large => ?_
    have least : 65 ≤ letter.val.toNat := large.1
    have most : letter.val.toNat ≤ 57 := isDigit.2
    omega
  rw [same] at small
  rcases small with rfl | rfl
  · cases isDigit
  · cases isDigit

/-- A word begins with a letter. -/
theorem exists_letter (word : letters.map Char.toLower ∈ words) :
    ∃ letter rest, letters = letter :: rest ∧ IsLetter letter := by
  cases letters with
  | nil => exact absurd word (by decide)
  | cons letter rest =>
      refine ⟨letter, rest, rfl, isLetter_of_toLower ?_⟩
      rw [words, List.map_cons] at word
      rcases List.mem_cons.mp word with inf | word
      · exact Or.inl (List.cons.inj inf).1
      · rcases List.mem_cons.mp word with infinity | word
        · exact Or.inl (List.cons.inj infinity).1
        · exact Or.inr (List.cons.inj (List.mem_singleton.mp word)).1

theorem IsWord.ne_nil (isWord : IsWord text) : text ≠ [] := by
  obtain ⟨mark, letters, rfl, word⟩ := isWord
  obtain ⟨letter, rest, rfl, -⟩ := exists_letter word
  exact List.append_ne_nil_of_right_ne_nil _ (List.cons_ne_nil letter rest)

/-- The sign of a word is found, and its letters are left. -/
theorem splitSign_word
    (mark : Mark)
    (word : letters.map Char.toLower ∈ words) :
    splitSign (mark.text ++ letters) = (mark.isNegative, letters) := by
  obtain ⟨letter, rest, rfl, isLetter⟩ := exists_letter word
  refine splitSign_append mark fun character first => ?_
  cases first
  exact isLetter.1

/-- A word is read without regard to its sign and to the case of its letters. -/
theorem ofWord?_eq (text : List Char) :
    Numeral.ofWord? text =
      if String.ofList ((splitSign text).2.map Char.toLower) = "inf" ∨
          String.ofList ((splitSign text).2.map Char.toLower) = "infinity" then
        some (.infinity (splitSign text).1)
      else if String.ofList ((splitSign text).2.map Char.toLower) = "nan" then some .notANumber
      else none :=
  rfl

/-- A text is read as a word exactly if it is one. -/
theorem exists_ofWord?_iff :
    (∃ numeral, Numeral.ofWord? text = some numeral) ↔ IsWord text := by
  obtain ⟨mark, letters, rfl, split⟩ := exists_splitSign text
  have spelled : IsWord (mark.text ++ letters) ↔ letters.map Char.toLower ∈ words := by
    refine ⟨?_, fun word => ⟨mark, letters, rfl, word⟩⟩
    rintro ⟨otherMark, otherLetters, same, word⟩
    have otherSplit := splitSign_word otherMark word
    rw [same, split] at otherSplit
    cases congrArg Prod.snd otherSplit
    exact word
  have spells (word : String) :
      String.ofList (letters.map Char.toLower) = word ↔
        letters.map Char.toLower = word.toList := by
    rw [← String.toList_inj, String.toList_ofList]
  rw [spelled, ofWord?_eq, split]
  simp only [spells, words, List.mem_cons, List.not_mem_nil, or_false]
  split
  · rename_i infinite
    exact iff_of_true ⟨_, rfl⟩ (infinite.imp_right Or.inl)
  · rename_i finite
    split
    · rename_i undefined
      exact iff_of_true ⟨_, rfl⟩ (Or.inr (Or.inr undefined))
    · rename_i defined
      refine iff_of_false nofun ?_
      rw [← or_assoc]
      exact not_or.mpr ⟨finite, defined⟩

/-- What is read as a word is not a finite number. -/
theorem isFinite_ofWord? (read : Numeral.ofWord? text = some numeral) :
    numeral.toFloat.isFinite = false := by
  have beyond (negative : Bool) :
      (Numeral.infinity negative).toFloat.isFinite = false :=
    Bool.eq_false_iff.mpr (mt (Binary64.isFinite_ofMagnitude le_rfl).mp (lt_irrefl _))
  rw [ofWord?_eq] at read
  split at read
  · cases read
    exact beyond _
  · split at read
    · cases read
      rfl
    · cases read

/-- No literal is a word. -/
theorem Spelling.not_isWord (spelling : Spelling) : ¬IsWord spelling.text := by
  rintro ⟨mark, letters, same, word⟩
  have split := splitSign_word mark word
  rw [same, spelling.splitSign_text] at split
  obtain ⟨letter, rest, rfl, -, notPoint, notDigit⟩ := exists_letter word
  obtain ⟨character, further, leading, kind⟩ := spelling.head_unsigned
  rw [leading] at split
  cases congrArg Prod.snd split
  rcases kind with isDigit | isPoint
  · exact Bool.false_ne_true (notDigit.symm.trans isDigit)
  · exact notPoint isPoint

/-- Every spelling is read as its literal. -/
theorem parse?_spelling (spelling : Spelling) :
    Numeral.parse? spelling.text = some (.literal spelling.literal) := by
  rw [Numeral.parse?, Literal.parse?_eq_some_iff.mpr ⟨spelling, rfl, rfl⟩]

/-- What is no spelling can only be a word. -/
theorem parse?_of_unspelled (unspelled : ∀ spelling : Spelling, spelling.text ≠ text) :
    Numeral.parse? text = Numeral.ofWord? text := by
  have unread : Literal.parse? text = none := by
    rw [Option.eq_none_iff_forall_ne_some]
    intro literal read
    obtain ⟨spelling, same, -⟩ := Literal.parse?_eq_some_iff.mp read
    exact unspelled spelling same
  rw [Numeral.parse?, unread]

/-- A word is read, but not as a finite number. -/
theorem exists_parse?_of_isWord (isWord : IsWord text) :
    ∃ numeral, Numeral.parse? text = some numeral ∧ numeral.toFloat.isFinite = false := by
  obtain ⟨numeral, read⟩ := exists_ofWord?_iff.mpr isWord
  refine ⟨numeral, ?_, isFinite_ofWord? read⟩
  rw [parse?_of_unspelled fun spelling same => spelling.not_isWord (same ▸ isWord), read]

/-- What is neither a literal nor a word is not read. -/
theorem parse?_eq_none
    (unspelled : ∀ spelling : Spelling, spelling.text ≠ text)
    (notWord : ¬IsWord text) :
    Numeral.parse? text = none := by
  rw [parse?_of_unspelled unspelled, Option.eq_none_iff_forall_ne_some]
  exact fun numeral read => notWord (exists_ofWord?_iff.mp ⟨numeral, read⟩)

end Words

end Decimal
end StagePipeline
