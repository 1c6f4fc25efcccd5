import NestApi.JsString

namespace NestApi.Csv

inductive CsvCell where
  | string (value : List Char)
  | number (value : Int)
  | boolean (value : Bool)
  | null
  deriving DecidableEq

abbrev CsvRow := List (String × CsvCell)

structure CsvColumn where
  key : String
  header : List Char

inductive Eol where
  | crlf
  | lf

def Eol.text : Eol → List Char
  | .crlf => ['\r', '\n']
  | .lf => ['\n']

structure CsvEncodeInput where
  columns : List CsvColumn
  rows : List CsvRow
  eol : Option Eol
  bom : Option Bool

structure CsvEncodeOutput where
  bytes : ByteArray
  rowCount : Nat
  byteLength : Nat

def objectPrototype : List String :=
  ["__defineGetter__", "__defineSetter__", "__lookupGetter__", "__lookupSetter__", "__proto__",
    "constructor", "hasOwnProperty", "isPrototypeOf", "propertyIsEnumerable", "toLocaleString",
    "toString", "valueOf"]

/-- `String()` of what is inherited under a name. -/
def inheritedText (name : String) : List Char :=
  if name = "__proto__" then "[object Object]".toList
  else
    let function := if name = "constructor" then "Object" else name
    "function ".toList ++ function.toList ++ "() \x7b [native code] \x7d".toList

inductive CsvValue where
  | cell (cell : CsvCell)
  | inherited (name : String)
  | undefined

def CsvRow.own (row : CsvRow) (key : String) : CsvValue :=
  match row.lookup key with
  | some cell => .cell cell
  | none => .undefined

def CsvRow.get (row : CsvRow) (key : String) : CsvValue :=
  match row.lookup key with
  | some cell => .cell cell
  | none => if key ∈ objectPrototype then .inherited key else .undefined

-- `String()` of a number.
variable (numeral : Int → List Char)

def cellToString : CsvValue → List Char
  | .undefined | .cell .null => []
  | .cell (.string value) => value
  | .cell (.number value) => numeral value
  | .cell (.boolean value) => (if value then "true" else "false").toList
  | .inherited name => inheritedText name

def needsQuoting (c : Char) : Bool := c = '"' || c = ',' || c = '\n' || c = '\r'

/-- `value.replace(/"/g, '""')`. -/
def doubled (value : List Char) : List Char :=
  value.flatMap fun c => if c = '"' then ['"', '"'] else [c]

def quoteIfNeeded (value : List Char) : List Char :=
  if value.any needsQuoting then '"' :: (doubled value ++ ['"']) else value

def line (eol : Eol) (cells : List (List Char)) : List Char :=
  [','].intercalate (cells.map quoteIfNeeded) ++ eol.text

def encodeCsv (input : CsvEncodeInput) : CsvEncodeOutput :=
  let eol := input.eol.getD .crlf
  let mark := if input.bom.getD false then ['\uFEFF'] else []
  let text := mark ++ line eol (input.columns.map (·.header)) ++ input.rows.flatMap fun row =>
    line eol (input.columns.map fun c => cellToString numeral (row.get c.key))
  let bytes := (String.ofList text).toUTF8
  ⟨bytes, input.rows.length, bytes.size⟩

/-- Where a reader of RFC 4180 stands: before a cell, in one without quotes, between quotes, after a
quote that may close the cell, or within a line break. -/
inductive Mode where
  | start
  | plain
  | quoted
  | closed
  | ending
  deriving DecidableEq

/-- Reads the records of a text, `cells` and `cell` being those of the record in hand. A line feed
alone ends a record too. -/
def records : Mode → List (List Char) → List Char → List Char → Option (List (List (List Char)))
  | mode, cells, cell, [] =>
    if mode = .quoted ∨ mode = .ending then none
    else if mode = .start ∧ cells = [] then some []
    else some [cells ++ [cell]]
  | mode, cells, cell, c :: rest =>
    if mode = .quoted then
      if c = '"' then records .closed cells cell rest else records .quoted cells (cell ++ [c]) rest
    else if c = '\n' then (records .start [] [] rest).map ((cells ++ [cell]) :: ·)
    else if mode = .ending then none
    else if c = '\r' then records .ending cells cell rest
    else if c = ',' then records .start (cells ++ [cell]) [] rest
    else if c = '"' then
      if mode = .plain then none
      else records .quoted cells (if mode = .closed then cell ++ [c] else []) rest
    else if mode = .closed then none
    else records .plain cells (cell ++ [c]) rest

def readCsv (bom : Bool) (bytes : ByteArray) : Option (List (List (List Char))) := do
  let text ← String.fromUTF8? bytes
  records .start [] [] (if bom then text.toList.tail else text.toList)

variable {numeral} {cells : List (List Char)} {cell value rest : List Char} {mode : Mode}

theorem records_plain (clean : value.any needsQuoting = false) :
    records .plain cells cell (value ++ rest) = records .plain cells (cell ++ value) rest := by
  induction value generalizing cell with
  | nil => simp
  | cons c value ih =>
    simp only [List.any_cons, Bool.or_eq_false_iff, needsQuoting, decide_eq_false_iff_not] at clean
    obtain ⟨⟨⟨⟨quote, comma⟩, feed⟩, back⟩, clean⟩ := clean
    simp [records, quote, comma, feed, back, ih clean]

theorem records_doubled :
    records .quoted cells cell (doubled value ++ rest) =
      records .quoted cells (cell ++ value) rest := by
  induction value generalizing cell with
  | nil => simp [doubled]
  | cons c value ih =>
    have next := @ih (cell ++ [c])
    rw [doubled] at next ⊢
    by_cases quote : c = '"'
    · subst quote
      simpa [records] using next
    · simpa [records, quote] using next

def Mode.Stops (mode : Mode) : Prop := mode ≠ .quoted ∧ mode ≠ .ending

/-- A cell is read back whatever it holds. -/
theorem records_quoteIfNeeded (value : List Char) :
    ∃ mode, mode.Stops ∧ ∀ cells rest,
      records .start cells [] (quoteIfNeeded value ++ rest) = records mode cells value rest := by
  by_cases needed : value.any needsQuoting = true
  · refine ⟨.closed, by simp [Mode.Stops], fun cells rest => ?_⟩
    rw [quoteIfNeeded, if_pos needed]
    have quoted := @records_doubled cells [] value ('"' :: rest)
    simpa [records] using quoted
  · rw [quoteIfNeeded, if_neg needed]
    cases value with
    | nil => exact ⟨.start, by simp [Mode.Stops], fun _ _ => rfl⟩
    | cons c value =>
      refine ⟨.plain, by simp [Mode.Stops], fun cells rest => ?_⟩
      simp only [List.any_cons, Bool.or_eq_true, not_or, needsQuoting, decide_eq_true_eq] at needed
      obtain ⟨⟨⟨⟨quote, comma⟩, feed⟩, back⟩, clean⟩ := needed
      have plain := @records_plain cells [c] value rest (by simpa using clean)
      simpa [records, quote, comma, feed, back] using plain

theorem records_eol (stops : mode.Stops) (eol : Eol) :
    records mode cells cell (eol.text ++ rest) =
      (records .start [] [] rest).map ((cells ++ [cell]) :: ·) := by
  cases eol <;> simp [Eol.text, records, stops.1, stops.2]

theorem records_line (eol : Eol) {values : List (List Char)} (nonempty : values ≠ []) :
    records .start cells [] (line eol values ++ rest) =
      (records .start [] [] rest).map ((cells ++ values) :: ·) := by
  induction values generalizing cells with
  | nil => contradiction
  | cons value values ih =>
    obtain ⟨mode, stops, read⟩ := records_quoteIfNeeded value
    cases values with
    | nil => simp [line, read, records_eol stops]
    | cons next values =>
      have more := @ih (cells ++ [value]) (by simp)
      simp only [line, List.map_cons] at more ⊢
      rw [List.intercalate_cons_cons, List.append_assoc, List.append_assoc, List.append_assoc, read]
      simpa [records, stops.1, stops.2] using more

theorem records_lines (eol : Eol) {table : List (List (List Char))}
    (nonempty : ∀ values ∈ table, values ≠ []) :
    records .start [] [] (table.flatMap (line eol)) = some table := by
  induction table with
  | nil => rfl
  | cons values table ih =>
    rw [List.forall_mem_cons] at nonempty
    rw [List.flatMap_cons, records_line eol nonempty.1, ih nonempty.2]
    simp

/-- The headers, then the texts of each row's cells under a way to read a row. -/
def CsvEncodeInput.table (numeral : Int → List Char) (read : CsvRow → String → CsvValue)
    (input : CsvEncodeInput) : List (List (List Char)) :=
  input.columns.map (·.header) :: input.rows.map fun row =>
    input.columns.map fun c => cellToString numeral (read row c.key)

theorem readCsv_encodeCsv (input : CsvEncodeInput) (column : input.columns ≠ []) :
    readCsv (input.bom.getD false) (encodeCsv numeral input).bytes =
      some (input.table numeral CsvRow.get) := by
  have lines := @records_lines (input.eol.getD .crlf) (input.table numeral CsvRow.get)
    (by simp [CsvEncodeInput.table, column])
  rw [← lines, readCsv, encodeCsv, JsString.fromUTF8?_toUTF8]
  cases input.bom.getD false <;> simp [CsvEncodeInput.table, List.flatMap_map]

theorem cellToString_get_iff (row : CsvRow) (key : String) :
    cellToString numeral (row.get key) = cellToString numeral (row.own key) ↔
      (key ∈ objectPrototype → (row.lookup key).isSome) := by
  have named : inheritedText key ≠ [] := by
    rw [inheritedText]
    split <;> simp
  cases own : row.lookup key with
  | some cell => simp [CsvRow.get, CsvRow.own, own]
  | none =>
    by_cases inherits : key ∈ objectPrototype <;>
      simp [CsvRow.get, CsvRow.own, own, inherits, cellToString, named]

/-- A reader gets the headers and the rows' cells back, one record for each, as long as no row is
without a column's key that every object inherits. -/
theorem encodeCsv_round_trip (numeral : Int → List Char) (input : CsvEncodeInput)
    (column : input.columns ≠ []) :
    let output := encodeCsv numeral input
    (readCsv (input.bom.getD false) output.bytes = some (input.table numeral CsvRow.own) ↔
      ∀ row ∈ input.rows, ∀ c ∈ input.columns,
        c.key ∈ objectPrototype → (row.lookup c.key).isSome) ∧
    (readCsv (input.bom.getD false) output.bytes).map List.length = some (output.rowCount + 1) ∧
    output.byteLength = output.bytes.size := by
  intro output
  rw [readCsv_encodeCsv input column]
  refine ⟨?_, by simp [CsvEncodeInput.table, output, encodeCsv], rfl⟩
  simp [CsvEncodeInput.table, cellToString_get_iff]

def named (key : String) (rows : List CsvRow) : CsvEncodeInput := ⟨[⟨key, ['N']⟩], rows, none, none⟩

/-- A cell that needs its quotes, in a row with a `toString` of its own. -/
theorem encodeCsv_round_trip_named : let row : CsvRow := [("toString", .string ['"', ',', '\n'])]
    readCsv false (encodeCsv (fun _ => []) (named "toString" [row])).bytes =
      some [[['N']], [['"', ',', '\n']]] := by
  intro row
  have trip := (encodeCsv_round_trip (fun _ => []) (named "toString" [row]) (by simp [named])).1.mpr
  exact trip (by simp [named, row])

/-- A missing cell is not empty where every object has a property of the column's name. -/
theorem encodeCsv_inherited : let numeral := fun _ => []
    (named "toString" [[]]).table numeral CsvRow.own = [[['N']], [[]]] ∧
      readCsv false (encodeCsv numeral (named "toString" [[]])).bytes =
        some [[['N']], ["function toString() \x7b [native code] \x7d".toList]] := by
  refine ⟨by decide, ?_⟩
  have read := @readCsv_encodeCsv (fun _ => []) (named "toString" [[]]) (by simp [named])
  rw [show readCsv false _ = _ from read]
  decide

end NestApi.Csv
