import StagePipeline.Proofs.Decimal.Spelling
import StagePipeline.Proofs.Numbers

/-!
# The texts that are numbers

A text is read as a number if what stands between its leading and trailing blanks is a
decimal literal that is not too large, and the number is then the nearest float.  Texts
that are too large or are words for what is not finite, texts with nothing between blanks,
and all other texts are told apart by the reason of the refusal.
-/

namespace StagePipeline

open Binary64 Decimal

/-! ## Blanks -/

namespace Text

/-- Whether a text consists of blanks only. -/
def AreBlank (text : List Char) : Prop :=
  ∀ character ∈ text, isBlank character = true

/-- A text neither begins nor ends with a blank. -/
structure IsTrimmed (text : List Char) : Prop where
  first : ∀ character ∈ text.head?, isBlank character = false
  last : ∀ character ∈ text.getLast?, isBlank character = false

/-- What stands between the leading and the trailing blanks of a text. -/
def IsContent (text content : List Char) : Prop :=
  IsTrimmed content ∧
    ∃ front back, AreBlank front ∧ AreBlank back ∧ front ++ (content ++ back) = text

variable {text content front back : List Char}

/-- Blanks in front are taken away. -/
theorem trimStart_append (areBlank : AreBlank front) (text : List Char) :
    trimStart (front ++ text) = trimStart text :=
  List.dropWhile_append_of_pos areBlank

theorem trimStart_eq_self (first : ∀ character ∈ text.head?, isBlank character = false) :
    trimStart text = text := by
  cases text with
  | nil => rfl
  | cons character text => exact List.dropWhile_cons_of_neg (by simp [first character rfl])

/-- Blanks on either side of a trimmed text are all that is cut off.  Without any content all
blanks are leading ones. -/
theorem trim_eq_of_isContent (isContent : IsContent text content) : trim text = content := by
  obtain ⟨⟨first, last⟩, front, back, frontBlank, backBlank, rfl⟩ := isContent
  rw [trim, trimStart_append frontBlank]
  cases content with
  | nil =>
      have none := trimStart_append backBlank []
      rw [List.append_nil] at none
      rw [List.nil_append, none]
      rfl
  | cons character content =>
      have start : trimStart (character :: content ++ back) = character :: content ++ back :=
        trimStart_eq_self first
      rw [start, List.reverse_append,
        trimStart_append (fun _ present => backBlank _ (List.mem_reverse.mp present)),
        trimStart_eq_self (by rwa [List.head?_reverse]), List.reverse_reverse]

/-- What is taken away in front is blank, and what is left begins otherwise. -/
theorem exists_trimStart (text : List Char) :
    (∃ front, AreBlank front ∧ front ++ trimStart text = text) ∧
      ∀ character ∈ (trimStart text).head?, isBlank character = false := by
  refine ⟨⟨text.takeWhile isBlank, fun _ present => List.mem_takeWhile_imp present,
    List.takeWhile_append_dropWhile⟩, fun character first => ?_⟩
  have stops := List.head?_dropWhile_not isBlank text
  rw [trimStart, Option.mem_def] at first
  rwa [first] at stops

/-- To trim a text leaves its content. -/
theorem isContent_trim (text : List Char) : IsContent text (trim text) := by
  obtain ⟨⟨front, frontBlank, whole⟩, first⟩ := exists_trimStart text
  obtain ⟨⟨back, backBlank, reversed⟩, last⟩ := exists_trimStart (trimStart text).reverse
  have rest : trim text ++ back.reverse = trimStart text := by
    rw [trim, ← List.reverse_append, reversed, List.reverse_reverse]
  refine ⟨⟨fun character leads => first character ?_, ?_⟩, front, back.reverse, frontBlank,
    fun _ present => backBlank _ (List.mem_reverse.mp present), ?_⟩
  · rw [← rest, List.head?_append, Option.mem_def.mp leads]
    rfl
  · rw [trim, List.getLast?_reverse]
    exact last
  · rw [rest, whole]

/-- A text has one content. -/
theorem isContent_iff : IsContent text content ↔ trim text = content :=
  ⟨trim_eq_of_isContent, fun same => same ▸ isContent_trim text⟩

/-- More blanks on either side of a text are cut off as well. -/
theorem trim_append (frontBlank : AreBlank front) (backBlank : AreBlank back) :
    trim (front ++ (text ++ back)) = trim text := by
  obtain ⟨isTrimmed, inner, outer, innerBlank, outerBlank, same⟩ := isContent_trim text
  refine trim_eq_of_isContent ⟨isTrimmed, front ++ inner, outer ++ back,
    List.forall_mem_append.mpr ⟨frontBlank, innerBlank⟩,
    List.forall_mem_append.mpr ⟨outerBlank, backBlank⟩, ?_⟩
  calc
    front ++ inner ++ (trim text ++ (outer ++ back)) =
        front ++ (inner ++ (trim text ++ outer) ++ back) := by simp only [List.append_assoc]
    _ = front ++ (text ++ back) := by rw [same]

end Text

/-! ## What a text is read as -/

/-- What becomes of a text with this content: what is not a number is refused, and a number
is rounded. -/
inductive Reading (content : List Char) : Except NumberFault Float → Prop where
  | empty : content = [] → Reading content (.error .empty)
  | number {value : Float} (spelling : Spelling) :
      spelling.text = content → RoundsTo spelling.isNegative spelling.size value →
      Reading content (.ok value)
  | tooLarge (spelling : Spelling) :
      spelling.text = content → overflowBound ≤ spelling.size →
      Reading content (.error .notFinite)
  | word : IsWord content → Reading content (.error .notFinite)
  | malformed :
      content ≠ [] → ¬IsWord content → (∀ spelling : Spelling, spelling.text ≠ content) →
      Reading content (.error .malformed)

section Reading

variable
  {text : String}
  {content : List Char}
  {value : Float}
  {result other : Except NumberFault Float}

/-- A literal is read as the float to which its number is rounded. -/
theorem isRounding_spelling (spelling : Spelling) :
    IsRounding spelling.isNegative spelling.size spelling.literal.toFloat := by
  have areDigits : AreDigits spelling.literal.digits := spelling.areDigits
  rw [← spelling.size_literal]
  exact Literal.isRounding_toFloat areDigits

/-- A literal that is not too large is rounded to a finite float. -/
theorem exists_roundsTo (spelling : Spelling) (within : spelling.size < overflowBound) :
    ∃ value, RoundsTo spelling.isNegative spelling.size value := by
  have rounding := isRounding_spelling spelling
  exact ⟨_, (rounding.roundsTo_iff spelling.size_nonneg).mpr
    ⟨rounding.isFinite_iff.mpr within, rfl⟩⟩

/-- A text with content is read by its content, and has to be finite. -/
theorem parseValue_eq
    (isContent : Text.IsContent text.toList content)
    (nonempty : content ≠ []) :
    parseValue text =
      match Numeral.parse? content with
      | none => .error .malformed
      | some numeral =>
          if numeral.toFloat.isFinite then .ok numeral.toFloat else .error .notFinite := by
  rw [parseValue, Text.trim_eq_of_isContent isContent]
  cases content with
  | nil => exact absurd rfl nonempty
  | cons character rest => rfl

/-- What a text is read as is what becomes of it. -/
theorem Reading.parseValue_eq
    (isContent : Text.IsContent text.toList content)
    (reading : Reading content result) :
    parseValue text = result := by
  cases reading with
  | empty none => rw [parseValue, Text.trim_eq_of_isContent isContent, none]
  | number spelling same rounds =>
      subst same
      have rounding := isRounding_spelling spelling
      obtain ⟨finite, rfl⟩ := (rounding.roundsTo_iff spelling.size_nonneg).mp rounds
      rw [StagePipeline.parseValue_eq isContent spelling.text_ne_nil, parse?_spelling]
      exact if_pos finite
  | tooLarge spelling same beyond =>
      subst same
      have infinite := mt (isRounding_spelling spelling).isFinite_iff.mp beyond.not_gt
      rw [StagePipeline.parseValue_eq isContent spelling.text_ne_nil, parse?_spelling]
      exact if_neg infinite
  | word isWord =>
      obtain ⟨numeral, read, infinite⟩ := exists_parse?_of_isWord isWord
      rw [StagePipeline.parseValue_eq isContent isWord.ne_nil, read]
      exact if_neg (Bool.eq_false_iff.mp infinite)
  | malformed nonempty notWord unspelled =>
      rw [StagePipeline.parseValue_eq isContent nonempty, parse?_eq_none unspelled notWord]

/-- Something becomes of every text. -/
theorem exists_reading (content : List Char) : ∃ result, Reading content result := by
  by_cases nonempty : content ≠ []
  · by_cases spelled : ∃ spelling : Spelling, spelling.text = content
    · obtain ⟨spelling, same⟩ := spelled
      rcases lt_or_ge spelling.size overflowBound with within | beyond
      · obtain ⟨value, rounds⟩ := exists_roundsTo spelling within
        exact ⟨_, .number spelling same rounds⟩
      · exact ⟨_, .tooLarge spelling same beyond⟩
    · by_cases isWord : IsWord content
      · exact ⟨_, .word isWord⟩
      · exact ⟨_, .malformed nonempty isWord (not_exists.mp spelled)⟩
  · exact ⟨_, .empty (not_not.mp nonempty)⟩

/-- A text is read as its content is. -/
theorem parseValue_eq_iff (isContent : Text.IsContent text.toList content) :
    parseValue text = result ↔ Reading content result := by
  refine ⟨?_, Reading.parseValue_eq isContent⟩
  rintro rfl
  obtain ⟨result, reading⟩ := exists_reading content
  rwa [reading.parseValue_eq isContent]

end Reading

/-! ## Which texts are numbers -/

/-- A text is refused for a reason. -/
def IsRefused (text reason : String) : Prop :=
  ∃ fault, parseValue text = .error fault ∧ fault.reason = reason

/-- What a text with this content is read as, and why it is refused otherwise. -/
structure IsReadExactly (text : String) (content : List Char) : Prop where
  number : ∀ value, parseValue text = .ok value ↔
    ∃ spelling : Spelling, spelling.text = content ∧
      RoundsTo spelling.isNegative spelling.size value
  accepted : (∃ value, parseValue text = .ok value) ↔
    ∃ spelling : Spelling, spelling.text = content ∧ spelling.size < overflowBound
  notFinite : IsRefused text "value is not finite" ↔
    IsWord content ∨
      ∃ spelling : Spelling, spelling.text = content ∧ overflowBound ≤ spelling.size
  empty : IsRefused text "cannot parse float from empty string" ↔ content = []
  malformed : IsRefused text "invalid float literal" ↔
    content ≠ [] ∧ ¬IsWord content ∧ ∀ spelling : Spelling, spelling.text ≠ content
  finite : ∀ value, parseValue text = .ok value →
    value.isFinite = true ∧ value.isNaN = false ∧ value.isInf = false
  blanks : ∀ front back, Text.AreBlank front → Text.AreBlank back →
    parseValue (String.ofList (front ++ (text.toList ++ back))) = parseValue text

section Exact

variable
  {text : String}
  {content : List Char}
  {value : Float}

/-- Every fault has a reason of its own. -/
theorem isRefused_iff (fault : NumberFault) :
    IsRefused text fault.reason ↔ parseValue text = .error fault := by
  refine ⟨?_, fun refused => ⟨fault, refused, rfl⟩⟩
  rintro ⟨other, refused, same⟩
  have known : other = fault := by
    revert same
    cases other <;> cases fault <;> decide
  rwa [← known]

/-- A text is accepted exactly if it is a spelling, with the float that its size rounds to. -/
theorem Reading.ok_iff :
    Reading content (.ok value) ↔
      ∃ spelling : Spelling, spelling.text = content ∧
        RoundsTo spelling.isNegative spelling.size value := by
  refine ⟨fun reading => ?_, fun ⟨spelling, same, rounds⟩ => .number spelling same rounds⟩
  cases reading with
  | number spelling same rounds => exact ⟨spelling, same, rounds⟩

/-- A text is not finite exactly if it is a word or a spelling of too large a size. -/
theorem Reading.notFinite_iff :
    Reading content (.error .notFinite) ↔
      IsWord content ∨
        ∃ spelling : Spelling, spelling.text = content ∧ overflowBound ≤ spelling.size := by
  constructor
  · intro reading
    cases reading with
    | word isWord => exact Or.inl isWord
    | tooLarge spelling same beyond => exact Or.inr ⟨spelling, same, beyond⟩
  · rintro (isWord | ⟨spelling, same, beyond⟩)
    · exact .word isWord
    · exact .tooLarge spelling same beyond

/-- A text is empty exactly if it has no content. -/
theorem Reading.empty_iff : Reading content (.error .empty) ↔ content = [] := by
  refine ⟨fun reading => ?_, .empty⟩
  cases reading with
  | empty none => exact none

/-- A text is malformed exactly if its content is neither a word nor a spelling. -/
theorem Reading.malformed_iff :
    Reading content (.error .malformed) ↔
      content ≠ [] ∧ ¬IsWord content ∧ ∀ spelling : Spelling, spelling.text ≠ content := by
  refine ⟨fun reading => ?_, fun ⟨nonempty, notWord, unspelled⟩ =>
    .malformed nonempty notWord unspelled⟩
  cases reading with
  | malformed nonempty notWord unspelled => exact ⟨nonempty, notWord, unspelled⟩

theorem isNaN_isInf_of_isFinite (finite : value.isFinite = true) :
    value.isNaN = false ∧ value.isInf = false := by
  rw [isFinite_eq] at finite
  change value.toModel.unpack.isNaN = false ∧ value.toModel.unpack.isInf = false
  cases unpacked : value.toModel.unpack with
  | zero | finite => exact ⟨rfl, rfl⟩
  | infinity | notANumber =>
      rw [unpacked] at finite
      cases finite

/-- Blanks around a text do not change how it is read. -/
theorem parseValue_append
    {front back : List Char}
    (frontBlank : Text.AreBlank front)
    (backBlank : Text.AreBlank back) :
    parseValue (String.ofList (front ++ (text.toList ++ back))) = parseValue text := by
  unfold parseValue
  rw [String.toList_ofList, Text.trim_append frontBlank backBlank]

/-- Every text has one content, and that decides what it is read as. -/
theorem parseValue_exact (text : String) :
    ∃ content, (∀ other, Text.IsContent text.toList other ↔ other = content) ∧
      IsReadExactly text content := by
  refine ⟨Text.trim text.toList, fun other => Text.isContent_iff.trans eq_comm, ?_⟩
  have isContent := Text.isContent_trim text.toList
  generalize Text.trim text.toList = content at isContent
  have number (value : Float) : parseValue text = .ok value ↔
      ∃ spelling : Spelling, spelling.text = content ∧
        RoundsTo spelling.isNegative spelling.size value :=
    (parseValue_eq_iff isContent).trans Reading.ok_iff
  have refused (fault : NumberFault) :
      IsRefused text fault.reason ↔ Reading content (.error fault) :=
    (isRefused_iff fault).trans (parseValue_eq_iff isContent)
  refine ⟨number, ⟨?_, ?_⟩, (refused .notFinite).trans Reading.notFinite_iff,
    (refused .empty).trans Reading.empty_iff, (refused .malformed).trans Reading.malformed_iff,
    fun value read => ?_, fun front back => parseValue_append⟩
  · rintro ⟨value, read⟩
    obtain ⟨spelling, same, within, -⟩ := (number value).mp read
    exact ⟨spelling, same, within⟩
  · rintro ⟨spelling, same, within⟩
    obtain ⟨value, rounds⟩ := exists_roundsTo spelling within
    exact ⟨value, (number value).mpr ⟨spelling, same, rounds⟩⟩
  · have finite := Stage.isFinite_of_parseValue read
    exact ⟨finite, isNaN_isInf_of_isFinite finite⟩

/-- A number between blanks with digits behind its point only, and a word in mixed letters. -/
theorem parseValue_exact_blanks :
    parseValue "\t-.5E+1\n" = .ok (-5) ∧
    (∃ spelling : Spelling, spelling.text = "-.5E+1".toList ∧
      RoundsTo spelling.isNegative spelling.size (-5)) ∧
    IsRefused " -Inf" "value is not finite" := by
  have read : parseValue "\t-.5E+1\n" = .ok (-5) := by rfl
  obtain ⟨content, unique, exact⟩ := parseValue_exact "\t-.5E+1\n"
  have same : "-.5E+1".toList = content :=
    (unique _).mp (Text.isContent_iff.mpr rfl)
  obtain ⟨word, wordUnique, wordExact⟩ := parseValue_exact " -Inf"
  have sameWord : "-Inf".toList = word :=
    (wordUnique _).mp (Text.isContent_iff.mpr rfl)
  rw [← same] at exact
  rw [← sameWord] at wordExact
  exact ⟨read, (exact.number (-5)).mp read,
    wordExact.notFinite.mpr (Or.inl ⟨.minus, "Inf".toList, rfl, by decide⟩)⟩

end Exact

end StagePipeline
