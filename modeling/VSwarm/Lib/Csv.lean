import Mathlib.Data.List.Basic

namespace VSwarm.Lib.Csv

structure Dialect where
  delimiter : Char
  quotechar : Char
  quote_ne_delimiter : quotechar ≠ delimiter
  quote_ne_newline : quotechar ≠ '\n' ∧ quotechar ≠ '\r'
  delimiter_ne_newline : delimiter ≠ '\n' ∧ delimiter ≠ '\r'

abbrev Row := List (List Char)

section Write

variable (d : Dialect)

def escape (field : List Char) : List Char :=
  field.flatMap fun c => if c = d.quotechar then [c, c] else [c]

def quote (field : List Char) : List Char := d.quotechar :: (escape d field ++ [d.quotechar])

def fields : Row → List Char
  | [] => []
  | field :: row => quote d field ++ row.flatMap (d.delimiter :: quote d ·)

def writeRow (row : Row) : List Char := fields d row ++ ['\r', '\n']

def write (rows : List Row) : List Char := rows.flatMap (writeRow d)

end Write

inductive Phase
  | startRecord
  | startField
  | inField
  | inQuotedField
  | quoteInQuotedField
  | eatNewline
  deriving DecidableEq

structure Reader where
  rows : List Row := []
  row : Row := []
  field : List Char := []
  phase : Phase := .startRecord
  deriving DecidableEq

/-- A field that has reached the limit raises. -/
def Reader.add (limit : Nat) (r : Reader) (c : Char) (phase : Phase) : Option Reader :=
  if r.field.length < limit then some { r with field := r.field ++ [c], phase := phase } else none

def Reader.save (r : Reader) : Reader :=
  { r with row := r.row ++ [r.field], field := [], phase := .startField }

def Reader.emit (r : Reader) (phase : Phase) : Reader :=
  { r with rows := r.rows ++ [r.row], row := [], field := [], phase := phase }

def afterNewline (c : Char) : Phase := if c = '\r' then .eatNewline else .startRecord

section Read

variable (d : Dialect) (limit : Nat)

def stepField (r : Reader) (c : Char) : Option Reader :=
  if c = '\n' ∨ c = '\r' then some (r.save.emit (afterNewline c))
  else if c = d.quotechar then some { r with phase := .inQuotedField }
  else if c = d.delimiter then some r.save
  else r.add limit c .inField

def stepRecord (r : Reader) (c : Char) : Option Reader :=
  if c = '\n' ∨ c = '\r' then some (r.emit (afterNewline c)) else stepField d limit r c

def step (r : Reader) (c : Char) : Option Reader :=
  match r.phase with
  | .startRecord => stepRecord d limit r c
  | .eatNewline =>
    if c = '\n' then some { r with phase := .startRecord } else stepRecord d limit r c
  | .startField => stepField d limit r c
  | .inField =>
    if c = '\n' ∨ c = '\r' then some (r.save.emit (afterNewline c))
    else if c = d.delimiter then some r.save
    else r.add limit c .inField
  | .inQuotedField =>
    if c = d.quotechar then some { r with phase := .quoteInQuotedField }
    else r.add limit c .inQuotedField
  | .quoteInQuotedField =>
    if c = d.quotechar then r.add limit c .inQuotedField
    else if c = d.delimiter then some r.save
    else if c = '\n' ∨ c = '\r' then some (r.save.emit (afterNewline c))
    else r.add limit c .inField

/-- The last record may end without a newline. -/
def Reader.finish (r : Reader) : List Row :=
  match r.phase with
  | .startRecord => r.rows
  | .eatNewline => r.rows
  | _ => (r.save.emit .startRecord).rows

def read (text : List Char) : Option (List Row) := (text.foldlM (step d limit) {}).map Reader.finish

end Read

def fits (limit : Nat) (rows : List Row) : Bool := rows.all (·.all (·.length ≤ limit))

section Laws

variable {d : Dialect} {limit : Nat}

theorem foldlM_step_escape (field : List Char) (rows : List Row) (row : Row) {acc : List Char}
    (hacc : acc.length ≤ limit) :
    (escape d field).foldlM (step d limit) ⟨rows, row, acc, .inQuotedField⟩ =
      if acc.length + field.length ≤ limit then some ⟨rows, row, acc ++ field, .inQuotedField⟩
      else none := by
  induction field generalizing acc with
  | nil => simp [escape, hacc]
  | cons c field ih =>
    have htail : escape d (c :: field) =
        (if c = d.quotechar then [c, c] else [c]) ++ escape d field := List.flatMap_cons
    -- a doubled quote adds one character, as any other does
    have hone : (if c = d.quotechar then [c, c] else [c]).foldlM (step d limit)
        ⟨rows, row, acc, .inQuotedField⟩ =
          if acc.length < limit then some ⟨rows, row, acc ++ [c], .inQuotedField⟩ else none := by
      by_cases hc : c = d.quotechar
      · subst hc
        simp [step, Reader.add]
      · simp [step, hc, Reader.add]
    rw [htail, List.foldlM_append, hone]
    by_cases hlt : acc.length < limit
    · have hrest := @ih (acc ++ [c]) (by rw [List.length_append]; exact hlt)
      rw [if_pos hlt]
      refine hrest.trans ?_
      simp [Nat.add_assoc, Nat.add_comm 1]
    · rw [if_neg hlt, if_neg (by simp only [List.length_cons]; omega)]
      rfl

theorem foldlM_step_quote (field : List Char) (rows : List Row) (row : Row) {phase : Phase}
    (h : phase = .startRecord ∨ phase = .startField) :
    (quote d field).foldlM (step d limit) ⟨rows, row, [], phase⟩ =
      if field.length ≤ limit then some ⟨rows, row, field, .quoteInQuotedField⟩ else none := by
  have hopen : step d limit ⟨rows, row, [], phase⟩ d.quotechar =
      some ⟨rows, row, [], .inQuotedField⟩ := by
    cases h with
    | inl h => simp [h, step, stepRecord, stepField, d.quote_ne_newline]
    | inr h => simp [h, step, stepField, d.quote_ne_newline]
  have hfield := @foldlM_step_escape d limit field rows row [] (Nat.zero_le limit)
  rw [List.length_nil, Nat.zero_add, List.nil_append] at hfield
  rw [quote, List.foldlM_cons, hopen]
  change ((escape d field ++ [d.quotechar]).foldlM (step d limit) _) = _
  rw [List.foldlM_append, hfield]
  split
  · simp [step]
  · rfl

theorem foldlM_step_rest (row : Row) (rows : List Row) (done : Row) (field : List Char) :
    (row.flatMap (d.delimiter :: quote d ·) ++ ['\r', '\n']).foldlM (step d limit)
      ⟨rows, done, field, .quoteInQuotedField⟩ =
        if row.all (·.length ≤ limit) then
          some ⟨rows ++ [done ++ field :: row], [], [], .startRecord⟩
        else none := by
  induction row generalizing done field with
  | nil =>
    simp [step, d.quote_ne_newline.2.symm, d.delimiter_ne_newline.2.symm, Reader.save, Reader.emit,
      afterNewline]
  | cons next row ih =>
    have hdelimiter : step d limit ⟨rows, done, field, .quoteInQuotedField⟩ d.delimiter =
        some ⟨rows, done ++ [field], [], .startField⟩ := by
      simp [step, d.quote_ne_delimiter.symm, Reader.save]
    rw [List.flatMap_cons, List.append_assoc, List.cons_append, List.foldlM_cons, hdelimiter]
    change ((quote d next ++ _).foldlM (step d limit) _) = _
    rw [List.foldlM_append, foldlM_step_quote next rows (done ++ [field]) (.inr rfl), List.all_cons]
    by_cases hnext : next.length ≤ limit
    · rw [if_pos hnext, decide_eq_true hnext, Bool.true_and]
      refine (ih (done ++ [field]) next).trans ?_
      simp
    · rw [if_neg hnext, decide_eq_false hnext]
      rfl

theorem foldlM_step_writeRow (row : Row) (rows : List Row) :
    (writeRow d row).foldlM (step d limit) ⟨rows, [], [], .startRecord⟩ =
      if row.all (·.length ≤ limit) then some ⟨rows ++ [row], [], [], .startRecord⟩ else none := by
  cases row with
  | nil => simp [writeRow, fields, step, stepRecord, Reader.emit, afterNewline]
  | cons field row =>
    rw [writeRow, fields, List.append_assoc, List.foldlM_append,
      foldlM_step_quote field rows [] (.inl rfl), List.all_cons]
    by_cases hfield : field.length ≤ limit
    · rw [if_pos hfield, decide_eq_true hfield, Bool.true_and]
      exact foldlM_step_rest row rows [] field
    · rw [if_neg hfield, decide_eq_false hfield]
      rfl

theorem foldlM_step_write (rows done : List Row) :
    (write d rows).foldlM (step d limit) ⟨done, [], [], .startRecord⟩ =
      if fits limit rows then some ⟨done ++ rows, [], [], .startRecord⟩ else none := by
  induction rows generalizing done with
  | nil => simp [write, fits]
  | cons row rows ih =>
    have htail : write d (row :: rows) = writeRow d row ++ write d rows := List.flatMap_cons
    rw [htail, List.foldlM_append, foldlM_step_writeRow, fits, List.all_cons]
    cases row.all (·.length ≤ limit) with
    | true =>
      rw [if_pos rfl, Bool.true_and]
      refine (ih (done ++ [row])).trans ?_
      rw [List.append_assoc, List.singleton_append]
      rfl
    | false => rfl

theorem read_write (rows : List Row) :
    read d limit (write d rows) = if fits limit rows then some rows else none := by
  rw [read, foldlM_step_write]
  cases fits limit rows <;> rfl

end Laws

end VSwarm.Lib.Csv
