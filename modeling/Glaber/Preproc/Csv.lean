import Glaber.Json.Builder
import Glaber.Lib.Results
import Glaber.Str.Buffer
import Glaber.Str.Utf8

/-! From CSV to JSON (`item_preproc.c`). The value is edited in place: a field ends where a NUL is put into it, and a pointer
into the value is its offset. The number of a field stays below the size of the JSON text, so that it does not wrap around. -/

namespace Glaber.Preproc

open Json Str

section

inductive CsvError where
  | noSecondParameter
  | invalidFirstParameter
  | noThirdParameter
  | invalidSecondParameter
  | invalidUtf8
  | lineBreak
  | moreFields
  | duplicatedName (name : List Char)
  | tooLarge
  | notDetected (field : Option (List Char))
  | unclosed (field : Option (List Char))
deriving DecidableEq

def CsvError.message : CsvError → List Char
  | .noSecondParameter => "cannot find second parameter".toList
  | .invalidFirstParameter => "invalid first parameter".toList
  | .noThirdParameter => "cannot find third parameter".toList
  | .invalidSecondParameter => "invalid second parameter".toList
  | .invalidUtf8 => "cannot convert CSV to JSON: invalid UTF-8 character in value".toList
  | .lineBreak => "cannot convert CSV to JSON: unsupported line break".toList
  | .moreFields => "cannot convert CSV to JSON: data row contains more fields than header row".toList
  | .duplicatedName name => "cannot convert CSV to JSON: duplicated column name \"".toList ++ name ++ ['"']
  | .tooLarge => "cannot convert CSV to JSON: input data is too large".toList
  | .notDetected field =>
    "cannot convert CSV to JSON: delimiter character or end of line are not detected after quoted field \"".toList ++
      printed field ++ ['"']
  | .unclosed field => "cannot convert CSV to JSON: unclosed quoted field \"".toList ++ printed field ++ ['"']

end

section

structure CsvParams where
  delim : List Char
  quote : List Char
  header : Bool
deriving DecidableEq

def csvParam (missing invalid : CsvError) (params : List Char) : Except CsvError (List Char × List Char) :=
  if params.head? = some '\n' then .ok ([], params)
  else
    match params.dropWhile (· ≠ '\n') with
    | [] => .error missing
    | field@(_ :: _) =>
      let sz := utf8CharLen params
      if sz = 0 ∨ sz + field.length ≠ params.length then .error invalid else .ok (params.take sz, field)

def csvSepLine (data : List Char) : Option (List Char × List Char) :=
  if (data.take 4).map Char.toLower = "sep=".toList then
    let p := data.drop 4
    let field := p.dropWhile fun c => c ≠ '\r' ∧ c ≠ '\n'
    let sz := utf8CharLen p
    if 0 < sz ∧ sz + field.length = p.length then
      some (p.take sz, if field.head? = some '\r' then field.drop 2 else field.drop 1)
    else none
  else none

def csvParams (delim params : List Char) : Except CsvError CsvParams := do
  let (first, params) ← csvParam .noSecondParameter .invalidFirstParameter params
  let (quote, params) ← csvParam .noThirdParameter .invalidSecondParameter params.tail
  return ⟨if first = [] then delim else first, quote, params.tail.head? = some '1'⟩

end

section

def maxRecvDataSize : ℕ := 2 ^ 30

def csvAddField (header : Bool) (json : JsonBuffer) (names : List (List Char)) (field : Option (List Char)) (num numMax : ℕ) :
    Except CsvError (JsonBuffer × List (List Char)) :=
  if 0 < numMax ∧ numMax ≤ num ∧ header then .error .moreFields
  else
    let field := field.getD []
    if numMax = 0 ∧ header then
      if field ∈ names.take num then .error (.duplicatedName field) else .ok (json, names.take num ++ [field])
    else
      let json := if num = 0 then json.run (.addObject none) else json
      let name := if header then names.getD num [] else Nat.toDigits 10 (num + 1)
      let json := json.run (.addString (some name) (some field) true)
      if maxRecvDataSize ≤ json.allocated then .error .tooLarge else .ok (json, names)

end

section

inductive CsvState where
  | field
  | delim
  | fieldQuoted
deriving DecidableEq

inductive CsvField where
  | data (offset : ℕ)
  | esc

structure Csv where
  buf : List Char
  data : ℕ
  state : CsvState
  field : Option CsvField
  fieldEsc : Option (List Char)
  fldNum : ℕ
  fldNumMax : ℕ
  names : List (List Char)
  json : JsonBuffer

def Csv.char (s : Csv) : Char := s.buf.getD s.data '\x00'

def Csv.fieldText (s : Csv) : Option (List Char) :=
  s.field.map fun
    | .data offset => cString (s.buf.drop offset)
    | .esc => s.fieldEsc.getD []

def Csv.put (s : Csv) (offset : ℕ) : Csv := { s with buf := s.buf.set offset '\x00' }

def Csv.isAt (s : Csv) (offset sz : ℕ) (param : List Char) : Bool :=
  sz = param.length && (s.buf.drop offset).take param.length = param

def Csv.addField (header : Bool) (s : Csv) : Except CsvError Csv := do
  let (json, names) ← csvAddField header s.json s.names s.fieldText s.fldNum s.fldNumMax
  return { s with json := json, names := names, field := none, fieldEsc := none, fldNum := s.fldNum + 1 }

def Csv.addFields (header : Bool) : ℕ → Csv → Except CsvError Csv
  | 0, s => .ok s
  | fuel + 1, s => do
    let s ← s.addField header
    if s.fldNum < s.fldNumMax ∧ header then s.addFields header fuel else return s

def Csv.endRow (header : Bool) (s : Csv) : Except CsvError Csv :=
  if s.state = .field ∨ header ∨ s.fldNum ≠ 0 then do
    let s ← (s.put s.data).addFields header (s.fldNumMax + 1)
    return { s with fldNumMax := max s.fldNumMax s.fldNum, fldNum := 0, json := s.json.run .close, state := .delim }
  else .ok { s with json := (s.json.run (.addObject none)).run .close, state := .delim }

def Csv.carriageReturn (s : Csv) : Except CsvError Csv :=
  if s.char = '\r' then
    let s := { s.put s.data with data := s.data + 1 }
    if s.char ≠ '\n' ∧ s.char ≠ '\x00' then .error .lineBreak else .ok s
  else .ok s

variable (params : CsvParams)

def Csv.plain (step : ℕ) (s : Csv) : Except CsvError Csv := do
  let s ← s.carriageReturn
  if s.char = '\n' ∨ s.char = '\x00' then s.endRow params.header
  else if s.isAt s.data step params.delim then do
    let s ← (s.put s.data).addField params.header
    return { s with state := .delim }
  else if s.state = .delim ∧ s.isAt s.data step params.quote then return { s with state := .fieldQuoted }
  else if s.state ≠ .field then return { s with field := some (.data s.data), state := .field }
  else return s

/-- A quote inside of quotes, in front of a character of `charSz` bytes: a doubled one is kept once, one at the end of the
field closes it. -/
def Csv.closing (charSz : ℕ) (s : Csv) : Except CsvError Csv :=
  let next := s.data + params.quote.length
  if charSz = 0 then .ok s
  else if s.isAt next charSz params.quote then
    let s := { s with field := some (s.field.getD (.data s.data)) }.put next
    .ok { s with fieldEsc := some (s.fieldEsc.getD [] ++ s.fieldText.getD []), field := none, data := next }
  else if s.buf.getD next '\x00' ∈ ['\r', '\n', '\x00'] ∨ s.isAt next charSz params.delim then
    let s := { s with state := .field }.put s.data
    match s.fieldEsc with
    | none => .ok s
    | some esc => .ok { s with fieldEsc := some (esc ++ s.fieldText.getD []), field := some .esc }
  else
    .error (.notDetected (s.field.map fun
      | .data offset => (s.buf.take s.data).drop offset
      | .esc => s.fieldEsc.getD []))

def Csv.quoted (step : ℕ) (s : Csv) : Except CsvError Csv :=
  if s.isAt s.data step params.quote then s.closing params (utf8CharLen (s.buf.drop (s.data + params.quote.length)))
  else .ok { s with field := some (s.field.getD (.data s.data)) }

def Csv.character (step : ℕ) (s : Csv) : Except CsvError Csv :=
  if s.state = .fieldQuoted then s.quoted params step else s.plain params step

def Csv.step (params : CsvParams) (s : Csv) : Except CsvError Csv :=
  let step := utf8CharLen (s.buf.drop s.data)
  if step = 0 then .error .invalidUtf8
  else do
    let s ← s.character params step
    return { s with data := s.data + step }

def Csv.loop : ℕ → Csv → Except CsvError Csv :=
  Lib.Results.whileLoop (fun s => s.data ≤ s.buf.length) (Csv.step params)

def csvToJson (garbage : ℕ → Char) (value params : List Char) : Except CsvError (List Char) := do
  let (delim, data) := (csvSepLine value).getD ([','], value)
  let params ← csvParams delim params
  let json := jsonBufferInitarray garbage
  if data = [] then return json.json.text
  else
    let s ← Csv.loop params (data.length + 1) ⟨value, value.length - data.length, .delim, none, none, 0, 0, [], json⟩
    if s.state = .fieldQuoted then .error (.unclosed s.fieldText) else return s.json.json.text

end

end Glaber.Preproc
