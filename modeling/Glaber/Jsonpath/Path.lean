import Glaber.Eval.Variant
import Glaber.Json.Parser

/-! Parsed JSON documents (`jsonobj.c`) and the texts of their values. -/

namespace Glaber.Jsonpath

/-- What the code takes from the platform: `printDouble` is `zbx_print_double`, and `print` is the same without trailing
zeros; `regexpMatch` has no result where the pattern does not compile; `strtod` gives the length of the number it reads,
if that is in range. -/
structure Platform (D : Type) extends Eval.Doubles D where
  printDouble : D → List Char
  regexpMatch : List Char → List Char → Option Bool
  strtod : List Char → Option ℕ
  near_zero : near (ofNat 0) (ofNat 0) = true

/-- `zbx_jsonobj_t` without its index; the members of an object stand in the order of its hashset. -/
inductive JsonObj (D : Type) where
  | null
  | true
  | false
  | number (value : D)
  | string (text : List Char)
  | array (values : List (JsonObj D))
  | object (members : List (List Char × JsonObj D))

section

variable {D : Type} (P : Platform D)

def quoted (text : List Char) : List Char := '"' :: (Json.escape text ++ ['"'])

mutual

def jsonobjToString : JsonObj D → List Char
  | .null => "null".toList
  | .true => "true".toList
  | .false => "false".toList
  | .number value => P.printDouble value
  | .string text => quoted text
  | .array values => '[' :: (arrayToString values ++ [']'])
  | .object members => '\x7b' :: (objectToString members ++ ['\x7d'])

def arrayToString : List (JsonObj D) → List Char
  | [] => []
  | value :: values => jsonobjToString value ++ arrayTail values

def arrayTail : List (JsonObj D) → List Char
  | [] => []
  | value :: values => ',' :: (jsonobjToString value ++ arrayTail values)

def objectToString : List (List Char × JsonObj D) → List Char
  | [] => []
  | (name, value) :: members => quoted name ++ (':' :: (jsonobjToString value ++ objectTail members))

def objectTail : List (List Char × JsonObj D) → List Char
  | [] => []
  | (name, value) :: members => ',' :: (quoted name ++ (':' :: (jsonobjToString value ++ objectTail members)))

end

def strCopyValue : JsonObj D → List Char
  | .string text => text
  | obj => jsonobjToString P obj

end

theorem JsonObj.induct {D : Type} {M : JsonObj D → Prop} (null : M .null) (isTrue : M .true) (isFalse : M .false)
    (number : ∀ value, M (.number value)) (string : ∀ text, M (.string text))
    (array : ∀ values, (∀ value ∈ values, M value) → M (.array values))
    (object : ∀ members, (∀ member ∈ members, M member.2) → M (.object members)) (obj : JsonObj D) : M obj := by
  apply @JsonObj.rec D M (fun values => ∀ value ∈ values, M value) (fun members => ∀ member ∈ members, M member.2)
    (fun member => M member.2) null isTrue isFalse number string array object
  · exact fun _ h => absurd h List.not_mem_nil
  · exact fun value values hvalue hvalues => List.forall_mem_cons.mpr ⟨hvalue, hvalues⟩
  · exact fun _ h => absurd h List.not_mem_nil
  · exact fun member members hmember hmembers => List.forall_mem_cons.mpr ⟨hmember, hmembers⟩
  · exact fun name value hvalue => hvalue

/-! Compiled JSONPaths and their compilation (`zbx_jsonpath_compile`); how filter expressions are parsed is a parameter. A
text is the list of its characters, without the NUL at its end. -/

open Glaber.Json (skipWhitespace)

/-- `~` is a function, too. -/
inductive FunctionType where
  | min
  | max
  | avg
  | length
  | first
  | sum
  | name
  deriving DecidableEq

inductive SegmentData (E : Type) where
  | matchAll
  | matchNames (values : List (List Char))
  | matchIndexes (values : List ℤ)
  | matchRange (start stop : Option ℤ)
  | matchExpression (expression : E)
  | function (type : FunctionType)
  deriving DecidableEq

structure Segment (E : Type) where
  data : SegmentData E
  detached : Bool
  deriving DecidableEq

structure Path (E : Type) where
  segments : List (Segment E)
  definite : Bool
  firstMatch : Bool
  deriving DecidableEq

section

def listAppendName (head : List (List Char)) (name : List Char) : List (List Char) :=
  if head.contains name then head else name :: head

def listAppendIndex (head : List ℤ) (index : ℤ) (checkDuplicate : Bool) : List ℤ :=
  if checkDuplicate ∧ index ∈ head then head else index :: head

def atoi : List Char → ℤ
  | '-' :: digits => -(Nat.ofDigitChars 10 digits 0 : ℤ)
  | digits => Nat.ofDigitChars 10 digits 0

variable {E : Type}

def parseNamesLoop : List Char → Option (Char × List Char) → List (List Char) → Bool →
    Option (List (List Char) × List Char)
  | [], _, _, _ => none
  | c :: list, none, head, parsedName =>
    if c = ']' then if parsedName then some (head, c :: list) else none
    else if c = '\'' ∨ c = '"' then parseNamesLoop list (some (c, [])) head parsedName
    else if c = ' ' ∨ c = '\t' then parseNamesLoop list none head parsedName
    else if c = ',' ∧ parsedName then parseNamesLoop list none head false
    else none
  | c :: list, some (quotes, name), head, parsedName =>
    if c = quotes then
      if name = [] then none else parseNamesLoop list none (listAppendName head name) true
    else if c = '\\' then
      match list with
      | [] => none
      | d :: list => if d = '\\' ∨ d = quotes then parseNamesLoop list (some (quotes, name ++ [d])) head parsedName else none
    else parseNamesLoop list (some (quotes, name ++ [c])) head parsedName

def parseNames (list : List Char) : Option (SegmentData E × List Char) := do
  let (values, next) ← parseNamesLoop list none [] false
  return (.matchNames values, next)

inductive ListType where
  | unknown
  | list
  | range
  deriving DecidableEq

def indexesSegment (head : List ℤ) (type : ListType) (hasStart parsedIndex : Bool) : Option (SegmentData E) :=
  if type = .range then
    let node := if parsedIndex then head.tail else head
    some (.matchRange (if hasStart then node.head? else none) (if parsedIndex then head.head? else none))
  else if parsedIndex then some (.matchIndexes head)
  else none

def parseIndexesLoop : List Char → Option (List Char) → List ℤ → ListType → Bool → Bool →
    Option (SegmentData E × List Char)
  | [], _, _, _, _, _ => none
  | c :: list, start, head, type, hasStart, parsedIndex =>
    if c.isDigit then parseIndexesLoop list (some (start.getD [] ++ [c])) head type hasStart parsedIndex
    else if c = '-' then
      if start.isSome then none else parseIndexesLoop list (some ['-']) head type hasStart parsedIndex
    else if start = some ['-'] then none
    else
      let head := match start with
        | some digits => listAppendIndex head (atoi digits) (type = .list)
        | none => head
      let parsedIndex := start.isSome || parsedIndex
      if c = ']' then (indexesSegment head type hasStart parsedIndex).map fun data => (data, c :: list)
      else if c = ':' then
        if type = .unknown then parseIndexesLoop list none head .range parsedIndex false else none
      else if c = ',' then
        if type = .range ∨ parsedIndex = false then none else parseIndexesLoop list none head .list hasStart false
      else if c = ' ' ∨ c = '\t' then parseIndexesLoop list none head type hasStart parsedIndex
      else none

def parseIndexes (list : List Char) : Option (SegmentData E × List Char) :=
  parseIndexesLoop list none [] .unknown false false

end

section

variable {E : Type} (parseExpression : Bool → List Char → Option (E × List Char))

def parseBracketSegment (definite : Bool) (start : List Char) : Option (SegmentData E × List Char) := do
  let ptr := skipWhitespace start
  let (data, next) ← match ptr with
    | [] => none
    | c :: rest =>
      if c = '?' then (parseExpression definite rest).map fun (expression, next) => (.matchExpression expression, next)
      else if c = '*' then some (.matchAll, rest)
      else if c = '\'' ∨ c = '"' then parseNames ptr
      else if c.isDigit ∨ c = ':' ∨ c = '-' then parseIndexes ptr
      else none
  match skipWhitespace next with
  | ']' :: rest => return (data, rest)
  | _ => none

def isNameChar (c : Char) : Bool := c.isAlphanum || c = '_'

def functionType (name : List Char) : Option FunctionType :=
  if name = "min".toList then some .min
  else if name = "max".toList then some .max
  else if name = "avg".toList then some .avg
  else if name = "length".toList then some .length
  else if name = "first".toList then some .first
  else if name = "sum".toList then some .sum
  else none

def callEnd : List Char → Option (List Char)
  | '(' :: rest =>
    match skipWhitespace rest with
    | ')' :: next => some next
    | _ => none
  | _ => none

def parseDotSegment (start : List Char) : Option (SegmentData E × List Char) :=
  match start with
  | '*' :: rest => some (.matchAll, rest)
  | _ =>
    let name := start.takeWhile isNameChar
    let ptr := start.drop name.length
    match callEnd ptr with
    | some next => (functionType name).map fun type => (.function type, next)
    | none => if name = [] then none else some (.matchNames [name], ptr)

def SegmentData.isFunction : SegmentData E → Bool
  | .function _ => true
  | _ => false

def SegmentData.definite : SegmentData E → Bool
  | .matchNames values => values.length ≤ 1
  | .matchIndexes values => values.length ≤ 1
  | .function _ => true
  | _ => false

def SegmentData.isFirst : SegmentData E → Bool
  | .function .first => true
  | _ => false

def parseSegment (definite : Bool) : List Char → Option (Segment E × List Char)
  | [] => none
  | '.' :: ptr =>
    let (detached, ptr) := match ptr with
      | '.' :: rest => (true, rest)
      | _ => (false, ptr)
    match ptr with
    | [] => none
    | c :: rest =>
      if c = '.' then none
      else (if c = '[' then parseBracketSegment parseExpression (definite && !detached) rest else parseDotSegment ptr).map
        fun (data, next) => (⟨data, detached⟩, next)
  | '[' :: rest => (parseBracketSegment parseExpression definite rest).map fun (data, next) => (⟨data, false⟩, next)
  | '~' :: rest => some (⟨.function .name, false⟩, rest)
  | _ => none

def compileLoop : ℕ → List Char → Path E → Option (Path E)
  | _, [], path => some path
  | 0, _ :: _, _ => none
  | turns + 1, c :: text, path => do
    let (segment, next) ← parseSegment parseExpression path.definite (c :: text)
    -- function segments can be followed only by function segments
    if (path.segments.getLast?.map (·.data.isFunction)).getD false ∧ ¬ segment.data.isFunction then none
    compileLoop turns next
      ⟨path.segments ++ [segment], path.definite && !segment.detached && segment.data.definite,
        path.firstMatch || segment.data.isFirst⟩

def compile : List Char → Option (Path E)
  | '$' :: c :: text =>
    (compileLoop parseExpression (text.length + 1) (c :: text) ⟨[], true, false⟩).map fun path =>
      { path with firstMatch := path.firstMatch || path.definite }
  | _ => none

end

end Glaber.Jsonpath
