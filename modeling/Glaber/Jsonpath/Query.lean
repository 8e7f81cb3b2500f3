import Glaber.Jsonpath.Expression

/-! JSONPath queries (`jsonpath.c`): the walk through a document and the evaluation of filters. -/

namespace Glaber.Jsonpath

structure Ref (D : Type) where
  name : List Char
  value : JsonObj D

abbrev Place := List ℕ

structure Index where
  path : List Char
  objects : List (List Char × List (List Char × ℕ))

/-- What queries write in a document: `index_num` of its root and the indexes of its containers. -/
structure Indexing where
  indexNum : ℤ
  index : Place → Option Index

def Indexing.disabled : Indexing := ⟨-1, fun _ => none⟩

structure Context (D : Type) where
  found : Bool
  objects : List (Ref D)
  indexing : Indexing

def Context.start {D : Type} (indexing : Indexing) : Context D := ⟨false, [], indexing⟩

abbrev Walk (D : Type) := Context D → Bool × Context D

structure Node (E D : Type) where
  name : List Char
  value : JsonObj D
  contents : List (Segment E) → Walk D

structure IndexKey (D : Type) where
  path : List Char
  value : List Char
  search : JsonObj D → Option (List Char)

structure Filters (E D : Type) where
  evaluate : E → JsonObj D → Option Bool
  index : E → Option (IndexKey D)

section

variable {E D : Type} (F : Filters E D) (firstMatch : Bool)

def Context.add (ctx : Context D) (node : Node E D) : Context D :=
  { ctx with found := ctx.found || firstMatch, objects := ctx.objects ++ [⟨node.name, node.value⟩] }

def queryNextSegment (rest : List (Segment E)) (node : Node E D) : Walk D := fun ctx =>
  match rest with
  | [] => (true, ctx.add firstMatch node)
  | segment :: _ => if segment.data.isFunction then (true, ctx.add firstMatch node) else node.contents rest ctx

def eachNode (visit : Node E D → Walk D) : List (Node E D) → Walk D
  | [], ctx => (true, ctx)
  | node :: nodes, ctx =>
    match visit node ctx with
    | (true, ctx) => eachNode visit nodes ctx
    | (false, ctx) => (false, ctx)

def eachUntilFound (visit : Node E D → Walk D) : List (Node E D) → Walk D
  | [], ctx => (true, ctx)
  | node :: nodes, ctx =>
    if ctx.found then (true, ctx)
    else
      match visit node ctx with
      | (true, ctx) => eachUntilFound visit nodes ctx
      | (false, ctx) => (false, ctx)

def matchName (rest : List (Segment E)) (values : List (List Char)) (nodes : List (Node E D)) : Walk D :=
  eachNode (queryNextSegment firstMatch rest) (values.filterMap fun name => nodes.find? (·.name = name))

def nodeAt (nodes : List (Node E D)) (queryIndex : ℤ) : Option (Node E D) :=
  let queryIndex := if 0 > queryIndex then queryIndex + nodes.length else queryIndex
  if queryIndex ≥ 0 then nodes[queryIndex.toNat]? else none

def matchIndex (rest : List (Segment E)) (values : List ℤ) (nodes : List (Node E D)) : Walk D :=
  eachNode (queryNextSegment firstMatch rest) (values.filterMap (nodeAt nodes))

def matchRange (rest : List (Segment E)) (start stop : Option ℤ) (nodes : List (Node E D)) : Walk D := fun ctx =>
  let valuesNum : ℤ := nodes.length
  let startIndex := start.getD 0
  let endIndex := (stop.map fun stop => min stop valuesNum).getD valuesNum
  let startIndex := if 0 > startIndex then max 0 (startIndex + valuesNum) else startIndex
  let endIndex := if 0 > endIndex then endIndex + valuesNum else endIndex
  if 0 > endIndex then (true, ctx)
  else eachNode (queryNextSegment firstMatch rest) ((nodes.take endIndex.toNat).drop startIndex.toNat) ctx

def matchExpression (expression : E) (rest : List (Segment E)) (node : Node E D) : Walk D := fun ctx =>
  match F.evaluate expression node.value with
  | none => (false, ctx)
  | some false => (true, ctx)
  | some true => queryNextSegment firstMatch rest node ctx

end

section

variable {E D : Type} (F : Filters E D) (firstMatch : Bool)

def indexAppendResult (objects : List (List Char × List (List Char × ℕ))) (value name : List Char) (i : ℕ) :
    List (List Char × List (List Char × ℕ)) :=
  match objects with
  | [] => [(value, [(name, i)])]
  | (value', refs) :: objects =>
    if value' = value then (value', refs ++ [(name, i)]) :: objects
    else (value', refs) :: indexAppendResult objects value name i

def indexObjects (search : JsonObj D → Option (List Char)) :
    List (Node E D) → ℕ → List (List Char × List (List Char × ℕ)) → List (List Char × List (List Char × ℕ))
  | [], _, objects => objects
  | node :: nodes, i, objects =>
    match search node.value with
    | some value => indexObjects search nodes (i + 1) (indexAppendResult objects value node.name i)
    | none => indexObjects search nodes (i + 1) objects

def createIndex (place : Place) (nodes : List (Node E D)) (key : IndexKey D) (indexing : Indexing) : Indexing :=
  if 0 ≠ indexing.indexNum then indexing
  else
    { indexNum := indexing.indexNum + 1
      index := Function.update indexing.index place (some ⟨key.path, indexObjects key.search nodes 0 []⟩) }

def eachRef (expression : E) (rest : List (Segment E)) (nodes : List (Node E D)) :
    List (List Char × ℕ) → Context D → Context D
  | [], ctx => ctx
  | (name, i) :: refs, ctx =>
    match nodes[i]? with
    | some node =>
      eachRef expression rest nodes refs (matchExpression F firstMatch expression rest { node with name := name } ctx).2
    | none => eachRef expression rest nodes refs ctx

def matchIndexedExpression (expression : E) (rest : List (Segment E)) (nodes : List (Node E D)) (index : Index)
    (key : IndexKey D) : Walk D := fun ctx =>
  (true, eachRef F firstMatch expression rest nodes ((index.objects.lookup key.value).getD []) ctx)

def visitElement (segment : Segment E) (rest : List (Segment E)) (node : Node E D) : Walk D := fun ctx =>
  let (ret, ctx) :=
    match segment.data with
    | .matchAll => queryNextSegment firstMatch rest node ctx
    | .matchExpression expression => matchExpression F firstMatch expression rest node ctx
    | _ => (true, ctx)
  if segment.detached then node.contents (segment :: rest) ctx else (ret, ctx)

def queryElements (place : Place) (segment : Segment E) (rest : List (Segment E)) (nodes : List (Node E D)) : Walk D :=
  fun ctx =>
  match segment.data with
  | .matchExpression expression =>
    match F.index expression with
    | some key =>
      let ctx := if (ctx.indexing.index place).isNone then
          { ctx with indexing := createIndex place nodes key ctx.indexing }
        else ctx
      match ctx.indexing.index place with
      | some index =>
        if index.path = key.path then matchIndexedExpression F firstMatch expression rest nodes index key ctx
        else eachUntilFound (visitElement F firstMatch segment rest) nodes ctx
      | none => eachUntilFound (visitElement F firstMatch segment rest) nodes ctx
    | none => eachUntilFound (visitElement F firstMatch segment rest) nodes ctx
  | _ => eachUntilFound (visitElement F firstMatch segment rest) nodes ctx

def thenDetached (segment : Segment E) (rest : List (Segment E)) (nodes : List (Node E D)) (first : Bool × Context D) :
    Bool × Context D :=
  if ¬ first.1 ∨ ¬ segment.detached then first else eachUntilFound (visitElement F firstMatch segment rest) nodes first.2

def queryObject (place : Place) (nodes : List (Node E D)) : List (Segment E) → Walk D
  | [], ctx => (true, ctx)
  | segment :: rest, ctx =>
    match segment.data with
    | .matchNames values => thenDetached F firstMatch segment rest nodes (matchName firstMatch rest values nodes ctx)
    | .matchIndexes _ => thenDetached F firstMatch segment rest nodes (true, ctx)
    | _ => queryElements F firstMatch place segment rest nodes ctx

def queryArray (place : Place) (nodes : List (Node E D)) : List (Segment E) → Walk D
  | [], ctx => (true, ctx)
  | segment :: rest, ctx =>
    match segment.data with
    | .matchNames _ => thenDetached F firstMatch segment rest nodes (true, ctx)
    | .matchIndexes values => thenDetached F firstMatch segment rest nodes (matchIndex firstMatch rest values nodes ctx)
    | .matchRange start stop =>
      thenDetached F firstMatch segment rest nodes (matchRange firstMatch rest start stop nodes ctx)
    | _ => queryElements F firstMatch place segment rest nodes ctx

mutual

def queryContents : JsonObj D → Place → List (Segment E) → Walk D
  | .object members, place => queryObject F firstMatch place (memberNodes members place 0)
  | .array values, place => queryArray F firstMatch place (valueNodes values place 0)
  | _, _ => fun _ ctx => (true, ctx)

def valueNodes : List (JsonObj D) → Place → ℕ → List (Node E D)
  | [], _, _ => []
  | value :: values, place, i =>
    ⟨Nat.toDigits 10 i, value, queryContents value (i :: place)⟩ :: valueNodes values place (i + 1)

def memberNodes : List (List Char × JsonObj D) → Place → ℕ → List (Node E D)
  | [], _, _ => []
  | (name, value) :: members, place, i =>
    ⟨name, value, queryContents value (i :: place)⟩ :: memberNodes members place (i + 1)

end

end

section

open Glaber.Eval (Variant variantCompare variantToDbl)

variable {D : Type} (P : Platform D)

def noFilters : Filters Empty D := ⟨fun e => e.elim, fun e => e.elim⟩

def operandObjects (obj : JsonObj D) (path : Path Empty) : List (Ref D) :=
  match queryContents noFilters path.firstMatch obj [] path.segments (.start .disabled) with
  | (true, ctx) => ctx.objects
  | (false, _) => []

def extractValue (obj : JsonObj D) (path : Path Empty) : Option (Variant D) :=
  (operandObjects obj path).head?.map fun ref => .str (strCopyValue P ref.value)

def variantToBoolean : Variant D → D
  | .ui64 value => P.ofBool (value ≠ 0)
  | .dbl value => P.ofBool (¬ P.near value (P.ofNat 0))
  | .str text => P.ofBool (text ≠ [])
  | _ => P.ofBool false

def variantToStr : Variant D → Option (List Char)
  | .str text => some text
  | .dbl value => some (P.print value)
  | .ui64 value => some (Nat.toDigits 10 value.toNat)
  | _ => none

def isTrue (value : D) : Bool := ¬ P.near value (P.ofNat 0)

def compareOp (holds : ℤ → Bool) (left right : Variant D) : Option (Variant D) :=
  some (.dbl (P.ofBool (holds (variantCompare P.toDoubles left right))))

def numericOp (op : D → D → D) (left right : Variant D) : Option (Variant D) := do
  let l ← variantToDbl P.toDoubles left
  let r ← variantToDbl P.toDoubles right
  return .dbl (op l r)

def booleanOp (op : Bool → Bool → Bool) (left right : Variant D) : Option (Variant D) :=
  some (.dbl (P.ofBool (op (isTrue P (variantToBoolean P left)) (isTrue P (variantToBoolean P right)))))

def regexpOp (left right : Variant D) : Option (Variant D) :=
  match variantToStr P left, variantToStr P right with
  | some text, some pattern => (P.regexpMatch text pattern).map fun result => .dbl (P.ofBool result)
  | _, _ => some (.dbl (P.ofBool false))

def evalOperator2 (operator : Operator2) (left right : Variant D) : Option (Variant D) :=
  match operator with
  | .plus => numericOp P P.add left right
  | .minus => numericOp P P.sub left right
  | .mult => numericOp P P.mul left right
  | .div => numericOp P P.div left right
  | .eq => compareOp P (fun c => c = 0) left right
  | .ne => compareOp P (fun c => c ≠ 0) left right
  | .gt => compareOp P (fun c => 0 < c) left right
  | .ge => compareOp P (fun c => 0 ≤ c) left right
  | .lt => compareOp P (fun c => 0 > c) left right
  | .le => compareOp P (fun c => 0 ≥ c) left right
  | .and => booleanOp P (· && ·) left right
  | .or => booleanOp P (· || ·) left right
  | .regexp => regexpOp P left right

def isContainer : JsonObj D → Bool
  | .array _ => true
  | .object _ => true
  | _ => false

inductive Evaluated (D : Type) where
  | invalid
  | fail
  | mismatch
  | stack (values : List (Variant D))

def evalTokens (root obj : JsonObj D) : List Token → List (Variant D) → Evaluated D
  | [], stack => .stack stack
  | .op2 operator :: tokens, right :: left :: stack =>
    match evalOperator2 P operator left right with
    | some value => evalTokens root obj tokens (value :: stack)
    | none => .fail
  | .op2 _ :: _, _ => .invalid
  | .pathAbsolute operand :: tokens, stack =>
    evalTokens root obj tokens ((extractValue P root operand.path).getD .none :: stack)
  | .pathRelative operand :: tokens, stack =>
    -- relative path can be applied only to array or object
    if isContainer obj then evalTokens root obj tokens ((extractValue P obj operand.path).getD .none :: stack)
    else .mismatch
  | .constStr text :: tokens, stack => evalTokens root obj tokens (.str text :: stack)
  | .constNum text :: tokens, stack => evalTokens root obj tokens (.dbl (P.atof text) :: stack)
  | .opNot :: tokens, right :: stack =>
    evalTokens root obj tokens (.dbl (P.sub (P.ofNat 1) (variantToBoolean P right)) :: stack)
  | .opNot :: _, [] => .invalid

def evaluate (root : JsonObj D) (expression : Expression) (obj : JsonObj D) : Option Bool :=
  match evalTokens P root obj expression.tokens [] with
  | .invalid => none
  | .fail => none
  | .mismatch => some false
  | .stack [value] => some (isTrue P (variantToBoolean P value))
  | .stack _ => some false

/-- The value of an element that `jsonpath_create_index` files it under. -/
def indexSearch (operand : Operand) (obj : JsonObj D) : Option (List Char) :=
  match operandObjects obj operand.path with
  | [ref] => some (strCopyValue P ref.value)
  | _ => none

def documentFilters (root : JsonObj D) : Filters Expression D where
  evaluate := evaluate P root
  index expression := expression.index.map fun (operand, value) => ⟨operand.text, value.text, indexSearch P operand⟩

end

end Glaber.Jsonpath
