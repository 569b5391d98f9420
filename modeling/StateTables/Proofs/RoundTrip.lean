import StateTables.Proofs.Decimals

/-! # Array literals are read back

A column is written as a literal and read back as the type and the values it has. The values are set
off by blanks and separated by commas, neither of which occurs in a number, and the zero that is
written behind them is the one that is dropped.
-/

namespace StateTables

/-! ## White space -/

namespace Text

theorem isBlank_of_isNumeral {character : Char} (numeral : isNumeral character = true) :
    isBlank character = false := by
  rcases Bool.or_eq_true_iff.mp numeral with digit | minus
  · have bounds : 48 ≤ character.toNat ∧ character.toNat ≤ 57 := by
      simpa [Char.isDigit, UInt32.le_iff_toNat_le] using digit
    simp [isBlank]
    omega
  · rw [eq_of_beq minus]
    rfl

theorem dropWhile_isBlank {characters : List Char}
    (visible : ∀ character ∈ characters.head?, isBlank character = false) :
    characters.dropWhile isBlank = characters := by
  cases characters with
  | nil => rfl
  | cons first rest => exact List.dropWhile_cons_of_neg (by simp [visible first rfl])

theorem trimBlanks_eq_self {characters : List Char}
    (first : ∀ character ∈ characters.head?, isBlank character = false)
    (last : ∀ character ∈ characters.getLast?, isBlank character = false) :
    trimBlanks characters = characters := by
  rw [trimBlanks, dropWhile_isBlank first, dropWhile_isBlank (by simpa using last),
    List.reverse_reverse]

theorem trimBlanks_append {blanks characters : List Char}
    (blank : ∀ character ∈ blanks, isBlank character = true)
    (visible : ∀ character ∈ characters, isBlank character = false) :
    trimBlanks (blanks ++ characters) = characters := by
  have dropped : (blanks ++ characters).dropWhile isBlank = characters.dropWhile isBlank :=
    List.dropWhile_append_of_pos blank
  rw [trimBlanks, dropped]
  exact trimBlanks_eq_self (fun character member => visible character (List.mem_of_mem_head? member))
    fun character member => visible character (List.mem_of_mem_getLast? member)

end Text

namespace Column

/-! ## Values -/

def gap (index : Nat) : List Char :=
  if index % valuesPerLine = 0 then ['\n', '\t'] else [' ']

theorem literalValues_cons (type : IntegerType) (index : Nat) (value : Int64)
    (rest : List Int64) : literalValues type index (value :: rest) =
      (gap index ++ (type.decimal value).toList) ++ ',' :: literalValues type (index + 1) rest :=
  rfl

theorem blank_of_mem_gap {index : Nat} {character : Char} (member : character ∈ gap index) :
    Text.isBlank character = true := by
  unfold gap at member
  split at member
  · simp only [List.mem_cons, List.not_mem_nil, or_false] at member
    rcases member with rfl | rfl <;> decide
  · rw [List.mem_singleton.mp member]
    decide

theorem visible_decimal {type : IntegerType} {value : Int64} :
    ∀ character ∈ (type.decimal value).toList, Text.isBlank character = false :=
  fun _ member => Text.isBlank_of_isNumeral (IntegerType.numeral_of_mem_decimal member)

theorem no_comma {type : IntegerType} {index : Nat} {value : Int64} :
    ∀ character ∈ gap index ++ (type.decimal value).toList, (character == ',') = false := by
  intro character member
  rw [beq_eq_false_iff_ne]
  rintro rfl
  rcases List.mem_append.mp member with inGap | inNumber
  · exact absurd (blank_of_mem_gap inGap) (by decide)
  · exact absurd (IntegerType.numeral_of_mem_decimal inNumber) (by decide)

/-- Between the commas of a literal stand its values, and nothing behind the last comma. -/
theorem fields_literalValues (type : IntegerType) (index : Nat) (values : List Int64) :
    ((literalValues type index values ++ ['\n']).splitOn ',').map Text.trimBlanks =
      values.map (fun value => (type.decimal value).toList) ++ [[]] := by
  rw [List.splitOn_eq_splitOnP]
  induction values generalizing index with
  | nil => rfl
  | cons value rest induction =>
      rw [literalValues_cons, List.append_assoc, List.cons_append,
        List.splitOnP_append_cons_of_forall_mem no_comma ',' rfl, List.map_cons, induction,
        Text.trimBlanks_append (fun _ => blank_of_mem_gap) visible_decimal]
      rfl

theorem readValues_literalValues (type : IntegerType) (index : Nat) (values : List Int64) :
    readValues type (literalValues type index values ++ ['\n']) = .ok values := by
  have written : (values.map fun value => (type.decimal value).toList).filter
      (fun field => !field.isEmpty) = values.map fun value => (type.decimal value).toList := by
    rw [List.filter_eq_self]
    intro field member
    rcases List.mem_map.mp member with ⟨value, _, rfl⟩
    simp [type.decimal_ne_nil value]
  unfold readValues
  dsimp only
  rw [fields_literalValues, List.filter_append, written]
  refine mapM_eq_ok.mpr ⟨by simp, fun place field found => ?_⟩
  have found : (values.map fun value => (type.decimal value).toList)[place]? = some field := by
    simpa using found
  rw [List.getElem?_map, Option.map_eq_some_iff] at found
  rcases found with ⟨value, stored, rfl⟩
  exact ⟨value, stored, readValue_decimal type value⟩

/-! ## Literals -/

theorem dropStart?_append (start text : List Char) :
    dropStart? start (start ++ text) = some text := by
  induction start with
  | nil => cases text <;> rfl
  | cons character start induction => exact (if_pos rfl).trans induction

theorem no_brace (type : IntegerType) : ∀ character ∈ type.name.toList,
    (character != '\x7b') = true := by
  apply List.all_eq_true.mp
  rcases type with ⟨signed, width⟩
  cases signed <;> cases width <;> decide

theorem named?_name (type : IntegerType) :
    IntegerType.named? (String.ofList (Text.trimBlanks type.name.toList)) = some type := by
  rcases type with ⟨signed, width⟩
  cases signed <;> cases width <;> decide +kernel

theorem toList_dots : "[...]".toList = ['[', '.', '.', '.', ']'] := by
  decide

theorem toList_literal (column : Column) : column.literal.toList =
    ['[', '.', '.', '.', ']'] ++ (column.type.name.toList ++ '\x7b' ::
      ((literalValues column.type 0 (column.values.toList ++ [0]) ++ ['\n']) ++ ['\x7d'])) := by
  unfold literal
  rw [String.toList_ofList, toList_dots]
  simp only [List.append_assoc, List.cons_append, List.nil_append]

/-- Reading the literal of a column gives the type and the values of the column. -/
theorem readLiteral_literal (column : Column) :
    readLiteral column.literal = .ok (column.type, column.values.toList) := by
  have values := readValues_literalValues column.type 0 (column.values.toList ++ [0])
  have text := column.toList_literal
  generalize literalValues column.type 0 (column.values.toList ++ [0]) ++ ['\n'] = body
    at text values
  have closed : column.literal.toList.getLast? = some '\x7d' := by
    have last : ('\x7b' :: (body ++ ['\x7d'])).getLast? = some '\x7d' :=
      List.getLast?_concat (l := '\x7b' :: body)
    rw [text, List.getLast?_append, List.getLast?_append, last]
    rfl
  have trimmed : Text.trimBlanks column.literal.toList = column.literal.toList := by
    apply Text.trimBlanks_eq_self
    · rw [text]
      rintro character ⟨⟩
      rfl
    · rw [closed]
      rintro character ⟨⟩
      rfl
  have name : (column.type.name.toList ++ '\x7b' :: (body ++ ['\x7d'])).takeWhile (· != '\x7b') =
      column.type.name.toList := by
    rw [List.takeWhile_append_of_pos (no_brace column.type)]
    simp
  have rest : (column.type.name.toList ++ '\x7b' :: (body ++ ['\x7d'])).dropWhile (· != '\x7b') =
      '\x7b' :: (body ++ ['\x7d']) := by
    rw [List.dropWhile_append_of_pos (no_brace column.type)]
    simp
  unfold readLiteral
  dsimp only
  rw [trimmed, closed, text, toList_dots, dropStart?_append]
  dsimp only
  rw [name, rest, named?_name]
  simp [values]

/-- A literal is read back as the type and the values it was written from, whatever these are. No
two columns with another type or other values are written alike. -/
theorem literal_round_trip (column : Column) :
    readLiteral column.literal = .ok (column.type, column.values.toList) ∧
    ∀ other : Column, other.literal = column.literal →
      other.type = column.type ∧ other.values = column.values := by
  refine ⟨column.readLiteral_literal, fun other same => ?_⟩
  have read := other.readLiteral_literal
  rw [same, column.readLiteral_literal] at read
  cases column
  cases other
  simpa [eq_comm, ← Array.toList_inj] using read

end Column

end StateTables
