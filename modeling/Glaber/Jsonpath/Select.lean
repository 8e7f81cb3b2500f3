import Glaber.Jsonpath.Query

namespace Glaber.Jsonpath

section

variable {E D : Type}

/-- An element of a container, with what paths select in its value. -/
structure Pick (E D : Type) where
  name : List Char
  value : JsonObj D
  below : List (Segment E) → List (Ref D)

def Pick.here (rest : List (Segment E)) (pick : Pick E D) : List (Ref D) :=
  if rest.head?.all (·.data.isFunction) then [⟨pick.name, pick.value⟩] else pick.below rest

def fromEnd (len : ℕ) (i : ℤ) : ℤ := if i < 0 then i + len else i

def elementAt {α : Type} (xs : List α) (i : ℤ) : Option α :=
  if 0 ≤ fromEnd xs.length i then xs[(fromEnd xs.length i).toNat]? else none

def slice {α : Type} (xs : List α) (start stop : Option ℤ) : List α :=
  (xs.take (fromEnd xs.length (stop.getD xs.length)).toNat).drop (fromEnd xs.length (start.getD 0)).toNat

def listed {α : Type} (isArray : Bool) (name : α → List Char) (xs : List α) : SegmentData E → List α
  | .matchNames names => if isArray then [] else names.filterMap fun n => xs.find? (name · = n)
  | .matchIndexes indexes => if isArray then indexes.filterMap (elementAt xs) else []
  | .matchRange start stop => if isArray then slice xs start stop else []
  | _ => []

variable (holds : E → JsonObj D → Bool)

def applies : SegmentData E → JsonObj D → Bool
  | .matchAll, _ => true
  | .matchExpression expression, value => holds expression value
  | _, _ => false

def Pick.visit (segment : Segment E) (rest : List (Segment E)) (pick : Pick E D) : List (Ref D) :=
  (if applies holds segment.data pick.value then pick.here rest else []) ++
    if segment.detached then pick.below (segment :: rest) else []

def selected (isArray : Bool) (picks : List (Pick E D)) : List (Segment E) → List (Ref D)
  | [] => []
  | segment :: rest =>
    (listed isArray Pick.name picks segment.data).flatMap (Pick.here rest) ++ picks.flatMap (Pick.visit holds segment rest)

mutual

def select : JsonObj D → List (Segment E) → List (Ref D)
  | .object members => selected holds false (memberPicks members)
  | .array values => selected holds true (valuePicks values 0)
  | _ => fun _ => []

def valuePicks : List (JsonObj D) → ℕ → List (Pick E D)
  | [], _ => []
  | value :: values, i => ⟨Nat.toDigits 10 i, value, select value⟩ :: valuePicks values (i + 1)

def memberPicks : List (List Char × JsonObj D) → List (Pick E D)
  | [] => []
  | (name, value) :: members => ⟨name, value, select value⟩ :: memberPicks members

end

end

section

variable {E D : Type} {firstMatch : Bool}

/-- The walk succeeds and gathers the values or, when one is enough, values that begin with the first of them. -/
def Gives (firstMatch : Bool) (walk : Walk D) (refs : List (Ref D)) : Prop :=
  ∀ ctx, ctx.indexing = .disabled → ∃ objects,
    walk ctx = (true, ⟨ctx.found || (firstMatch && !objects.isEmpty), ctx.objects ++ objects, .disabled⟩) ∧
      (ctx.found = false → objects.head? = refs.head? ∧ (firstMatch = false → objects = refs))

variable {walk next : Walk D} {refs refs' : List (Ref D)}

lemma Gives.congr (h : Gives firstMatch walk refs) (heq : ∀ ctx, next ctx = walk ctx) : Gives firstMatch next refs :=
  (funext heq : next = walk) ▸ h

lemma Gives.nothing : Gives firstMatch (fun ctx : Context D => (true, ctx)) [] := by
  rintro ⟨found, objects, indexing⟩ rfl
  exact ⟨[], by simp, fun _ => ⟨rfl, fun _ => rfl⟩⟩

lemma Gives.unlessFound (h : Gives firstMatch walk refs) :
    Gives firstMatch (fun ctx => if ctx.found then (true, ctx) else walk ctx) refs := by
  rintro ⟨found, objects, indexing⟩ rfl
  cases found with
  | false => exact h _ rfl
  | true => exact ⟨[], by simp, fun hf => by cases hf⟩

lemma Gives.andThen (h : Gives firstMatch walk refs) (h' : Gives firstMatch next refs') {both : Walk D}
    (hboth : ∀ ctx ctx', walk ctx = (true, ctx') → both ctx = next ctx') : Gives firstMatch both (refs ++ refs') := by
  intro ctx hctx
  obtain ⟨objects, hwalk, hrefs⟩ := h ctx hctx
  obtain ⟨objects', hnext, hrefs'⟩ :=
    h' ⟨ctx.found || (firstMatch && !objects.isEmpty), ctx.objects ++ objects, .disabled⟩ rfl
  refine ⟨objects ++ objects', ?_, fun hfound => ?_⟩
  · rw [hboth _ _ hwalk, hnext, List.append_assoc]
    cases firstMatch <;> cases objects <;> simp
  · obtain ⟨hhead, hall⟩ := hrefs hfound
    rw [hfound, Bool.false_or] at hrefs'
    cases hfirst : firstMatch with
    | false =>
      rw [hall hfirst, (hrefs' (by rw [hfirst]; rfl)).2 hfirst]
      exact ⟨rfl, fun _ => rfl⟩
    | true =>
      refine ⟨?_, fun hf => by cases hf⟩
      cases objects with
      | nil =>
        have hnil : refs = [] := List.head?_eq_none_iff.mp hhead.symm
        rw [hnil]
        exact (hrefs' (by simp)).1
      | cons object objects =>
        cases refs with
        | nil => cases hhead
        | cons ref refs => exact hhead

section

variable {α : Type} {visit : Node E D → Walk D} {node : α → Node E D} {gives : α → List (Ref D)}
  (h : ∀ x, Gives firstMatch (visit (node x)) (gives x)) (xs : List α)

include h

lemma Gives.eachNode : Gives firstMatch (Jsonpath.eachNode visit (xs.map node)) (xs.flatMap gives) := by
  induction xs with
  | nil => exact .nothing
  | cons x xs ih => exact (h x).andThen ih fun ctx ctx' hctx => by rw [List.map_cons, Jsonpath.eachNode, hctx]

lemma Gives.eachUntilFound : Gives firstMatch (Jsonpath.eachUntilFound visit (xs.map node)) (xs.flatMap gives) := by
  induction xs with
  | nil => exact .nothing
  | cons x xs ih =>
    refine ((h x).andThen ih fun ctx ctx' hctx => ?_).unlessFound
    rw [hctx]

end

section

variable {α β : Type} {isArray : Bool}

lemma listed_map (f : α → β) (name : β → List Char) (xs : List α) (data : SegmentData E) :
    listed isArray name (xs.map f) data = (listed isArray (name ∘ f) xs data).map f := by
  cases data with
  | matchNames names => cases isArray <;> simp [listed, List.map_filterMap, List.find?_map]
  | matchIndexes indexes =>
    cases isArray with
    | false => rfl
    | true =>
      simp only [listed, if_true, List.map_filterMap]
      congr 1
      funext i
      simp only [elementAt, List.length_map, List.getElem?_map]
      split <;> rfl
  | matchRange start stop => cases isArray <;> simp [listed, slice, List.map_drop, List.map_take]
  | _ => rfl

lemma matchRange_eq (rest : List (Segment E)) (start stop : Option ℤ) (nodes : List (Node E D)) :
    matchRange firstMatch rest start stop nodes =
      eachNode (queryNextSegment firstMatch rest) (slice nodes start stop) := by
  have hstart : (if 0 > start.getD 0 then max 0 (start.getD 0 + nodes.length) else start.getD 0).toNat =
      (fromEnd nodes.length (start.getD 0)).toNat := by
    rw [fromEnd]
    split <;> omega
  have hstop : (stop.map fun stop => min stop (nodes.length : ℤ)).getD nodes.length =
      min (stop.getD nodes.length) nodes.length := by
    cases stop <;> simp
  funext ctx
  rw [matchRange, slice, ← hstart, hstop]
  rcases lt_or_ge (stop.getD nodes.length) 0 with hn | hn
  · rw [min_eq_left (by omega), if_pos hn, fromEnd, if_pos hn]
    by_cases hempty : 0 > stop.getD nodes.length + nodes.length
    · have hzero : (stop.getD nodes.length + nodes.length).toNat = 0 := by omega
      rw [if_pos hempty, hzero, List.take_zero, List.drop_nil]
      rfl
    · rw [if_neg hempty]
  · rw [if_neg (not_lt.mpr (le_min hn (by omega))), fromEnd, if_neg (not_lt.mpr hn),
      if_neg (not_lt.mpr (le_min hn (by omega)))]
    congr 2
    rcases le_total (stop.getD nodes.length) nodes.length with hle | hle
    · rw [min_eq_left hle]
    · rw [min_eq_right hle, Int.toNat_natCast, List.take_length, List.take_of_length_le (by omega)]

end

section

variable {F : Filters E D} {holds : E → JsonObj D → Bool}

/-- No filter of the path fails, and each gives what `holds` says. -/
def Answers (F : Filters E D) (holds : E → JsonObj D → Bool) (path : List (Segment E)) : Prop :=
  ∀ segment ∈ path, ∀ expression, segment.data = .matchExpression expression →
    ∀ value, F.evaluate expression value = some (holds expression value)

structure Matched (firstMatch : Bool) (F : Filters E D) (holds : E → JsonObj D → Bool) where
  node : Node E D
  below : List (Segment E) → List (Ref D)
  agrees : ∀ path, Answers F holds path → Gives firstMatch (node.contents path) (below path)

def Matched.pick (x : Matched firstMatch F holds) : Pick E D := ⟨x.node.name, x.node.value, x.below⟩

variable {segment : Segment E} {rest : List (Segment E)} {place : Place}
  (x : Matched firstMatch F holds) (xs : List (Matched firstMatch F holds))

lemma Matched.here (hrest : Answers F holds rest) :
    Gives firstMatch (queryNextSegment firstMatch rest x.node) (x.pick.here rest) := by
  have hadd : Gives firstMatch (fun ctx => (true, ctx.add firstMatch x.node)) [⟨x.node.name, x.node.value⟩] := by
    rintro ⟨found, objects, indexing⟩ rfl
    exact ⟨[⟨x.node.name, x.node.value⟩], by simp [Context.add], fun _ => ⟨rfl, fun _ => rfl⟩⟩
  cases rest with
  | nil => exact hadd
  | cons segment rest =>
    cases hfunction : segment.data.isFunction with
    | true =>
      rw [Pick.here, if_pos (by simpa using hfunction)]
      exact hadd.congr fun ctx => if_pos hfunction
    | false =>
      rw [Pick.here, if_neg (by simpa using hfunction)]
      exact (x.agrees (segment :: rest) hrest).congr fun ctx => if_neg (by simp [hfunction])

lemma Matched.listed (hrest : Answers F holds rest) (isArray : Bool) (data : SegmentData E) :
    Gives firstMatch (eachNode (queryNextSegment firstMatch rest) (Jsonpath.listed isArray Node.name (xs.map node) data))
      ((Jsonpath.listed isArray Pick.name (xs.map pick) data).flatMap (Pick.here rest)) := by
  rw [listed_map, listed_map, List.flatMap_map]
  exact .eachNode (fun x => x.here hrest) _

lemma queryElements_disabled (nodes : List (Node E D)) {ctx : Context D} (h : ctx.indexing = .disabled) :
    queryElements F firstMatch place segment rest nodes ctx =
      eachUntilFound (visitElement F firstMatch segment rest) nodes ctx := by
  rw [queryElements]
  split
  · rename_i expression _
    cases F.index expression with
    | none => rfl
    | some key =>
      rw [h]
      exact congrArg (eachUntilFound (visitElement F firstMatch segment rest) nodes) (by cases ctx; cases h; rfl)
  · rfl

variable (hpath : Answers F holds (segment :: rest))

include hpath

lemma Matched.visit :
    Gives firstMatch (visitElement F firstMatch segment rest x.node) (x.pick.visit holds segment rest) := by
  obtain ⟨hfilter, hrest⟩ := List.forall_mem_cons.mp hpath
  have hhere := x.here hrest
  have hown : Gives firstMatch (visitElement F firstMatch ⟨segment.data, false⟩ rest x.node)
      (if applies holds segment.data x.node.value then x.pick.here rest else []) := by
    cases hdata : segment.data with
    | matchAll => exact hhere
    | matchExpression expression =>
      have hvalue := hfilter expression hdata x.node.value
      cases hholds : applies holds (.matchExpression expression) x.node.value with
      | true =>
        refine hhere.congr fun ctx => ?_
        simp only [visitElement, matchExpression, hvalue.trans (congrArg some hholds), Bool.false_eq_true, if_false]
      | false =>
        refine Gives.nothing.congr fun ctx => ?_
        simp only [visitElement, matchExpression, hvalue.trans (congrArg some hholds), Bool.false_eq_true, if_false]
    | _ => exact .nothing
  rw [Pick.visit]
  cases hdetached : segment.detached with
  | true =>
    refine hown.andThen (x.agrees (segment :: rest) hpath) fun ctx ctx' hctx => ?_
    rw [visitElement, hdetached]
    exact congrArg (fun out : Bool × Context D => x.node.contents (segment :: rest) out.2) hctx
  | false =>
    refine hown.andThen .nothing fun ctx ctx' hctx => ?_
    rw [visitElement, hdetached]
    exact hctx

lemma Matched.elements : Gives firstMatch (eachUntilFound (visitElement F firstMatch segment rest) (xs.map node))
    ((xs.map pick).flatMap (Pick.visit holds segment rest)) := by
  rw [List.flatMap_map]
  exact .eachUntilFound (fun x => x.visit hpath) xs

lemma Matched.thenDetached (hnone : ∀ value, applies holds segment.data value = false) {walk : Walk D}
    {refs : List (Ref D)} (hwalk : Gives firstMatch walk refs) :
    Gives firstMatch (fun ctx => Jsonpath.thenDetached F firstMatch segment rest (xs.map node) (walk ctx))
      (refs ++ (xs.map pick).flatMap (Pick.visit holds segment rest)) := by
  cases hdetached : segment.detached with
  | true =>
    refine hwalk.andThen (elements xs hpath) fun ctx ctx' hctx => ?_
    rw [Jsonpath.thenDetached, hctx, hdetached]
    rfl
  | false =>
    have hnil : (xs.map pick).flatMap (Pick.visit holds segment rest) = [] := by simp [Pick.visit, hnone, hdetached]
    rw [hnil, List.append_nil]
    refine hwalk.congr fun ctx => ?_
    rw [Jsonpath.thenDetached, if_pos (.inr (by simp [hdetached]))]

omit hpath in
lemma Matched.container (isArray : Bool) {path : List (Segment E)} (hpath : Answers F holds path) :
    Gives firstMatch (if isArray then queryArray F firstMatch place (xs.map node) path
      else queryObject F firstMatch place (xs.map node) path) (selected holds isArray (xs.map pick) path) := by
  cases path with
  | nil => cases isArray <;> exact .nothing
  | cons segment rest =>
    obtain ⟨data, detached⟩ := segment
    have hlisted : Gives firstMatch (eachNode (queryNextSegment firstMatch rest) _) _ :=
      Matched.listed xs (List.forall_mem_cons.mp hpath).2 isArray data
    have helements : Gives firstMatch (queryElements F firstMatch place ⟨data, detached⟩ rest (xs.map node)) _ :=
      fun ctx hctx => queryElements_disabled (F := F) (xs.map node) hctx ▸ elements xs hpath ctx hctx
    cases data with
    | matchNames values =>
      cases isArray with
      | false => exact thenDetached xs hpath (fun _ => rfl) hlisted
      | true => exact thenDetached xs hpath (fun _ => rfl) .nothing
    | matchIndexes values =>
      cases isArray with
      | false => exact thenDetached xs hpath (fun _ => rfl) .nothing
      | true => exact thenDetached xs hpath (fun _ => rfl) hlisted
    | matchRange start stop =>
      cases isArray with
      | false => exact helements
      | true =>
        rw [show Jsonpath.listed true Node.name _ (.matchRange start stop) = slice _ start stop from rfl,
          ← matchRange_eq] at hlisted
        exact thenDetached xs hpath (fun _ => rfl) hlisted
    | _ => cases isArray <;> exact helements

omit hpath in
lemma queryContents_gives (obj : JsonObj D) : ∀ place path, Answers F holds path →
    Gives firstMatch (queryContents F firstMatch obj place path) (select holds obj path) := by
  have hmatch : ∀ (name : List Char) (value : JsonObj D) (place : Place),
      (∀ place path, Answers F holds path →
        Gives firstMatch (queryContents F firstMatch value place path) (select holds value path)) →
        ∃ x : Matched firstMatch F holds, x.node = ⟨name, value, queryContents F firstMatch value place⟩ ∧
          x.pick = ⟨name, value, select holds value⟩ :=
    fun name value place h => ⟨⟨_, select holds value, h place⟩, rfl, rfl⟩
  induction obj using JsonObj.induct with
  | array values ih =>
    have hvalues : ∀ i place, ∃ xs : List (Matched firstMatch F holds),
        valueNodes F firstMatch values place i = xs.map Matched.node ∧ valuePicks holds values i = xs.map Matched.pick := by
      induction values with
      | nil => exact fun _ _ => ⟨[], rfl, rfl⟩
      | cons value values ihs =>
        intro i place
        obtain ⟨hvalue, hrest⟩ := List.forall_mem_cons.mp ih
        obtain ⟨x, hnode, hpick⟩ := hmatch (Nat.toDigits 10 i) value (i :: place) hvalue
        obtain ⟨xs, hnodes, hpicks⟩ := ihs hrest (i + 1) place
        exact ⟨x :: xs, by rw [valueNodes, List.map_cons, hnodes, hnode],
          by rw [valuePicks, List.map_cons, hpicks, hpick]⟩
    intro place path hpath
    obtain ⟨xs, hnodes, hpicks⟩ := hvalues 0 place
    rw [queryContents, select, hnodes, hpicks]
    exact Matched.container xs true hpath
  | object members ih =>
    have hmembers : ∀ i place, ∃ xs : List (Matched firstMatch F holds),
        memberNodes F firstMatch members place i = xs.map Matched.node ∧ memberPicks holds members = xs.map Matched.pick := by
      induction members with
      | nil => exact fun _ _ => ⟨[], rfl, rfl⟩
      | cons member members ihs =>
        intro i place
        obtain ⟨hvalue, hrest⟩ := List.forall_mem_cons.mp ih
        obtain ⟨x, hnode, hpick⟩ := hmatch member.1 member.2 (i :: place) hvalue
        obtain ⟨xs, hnodes, hpicks⟩ := ihs hrest (i + 1) place
        exact ⟨x :: xs, by rw [memberNodes, List.map_cons, hnodes, hnode],
          by rw [memberPicks, List.map_cons, hpicks, hpick]⟩
    intro place path hpath
    obtain ⟨xs, hnodes, hpicks⟩ := hmembers 0 place
    rw [queryContents, select, hnodes, hpicks]
    exact Matched.container xs false hpath
  | _ => exact fun _ _ _ => .nothing

omit hpath in
lemma query_of_answers {path : List (Segment E)} (hpath : Answers F holds path) (obj : JsonObj D) (firstMatch : Bool) :
    ∃ ctx, queryContents F firstMatch obj [] path (.start .disabled) = (true, ctx) ∧
      ctx.objects.head? = (select holds obj path).head? ∧ (firstMatch = false → ctx.objects = select holds obj path) := by
  obtain ⟨objects, hwalk, hrefs⟩ := queryContents_gives obj [] path hpath (.start .disabled) rfl
  exact ⟨_, hwalk, hrefs rfl⟩

omit hpath in
theorem query_selects (hfilters : ∀ expression value, F.evaluate expression value = some (holds expression value))
    (obj : JsonObj D) (path : List (Segment E)) (firstMatch : Bool) :
    ∃ ctx, queryContents F firstMatch obj [] path (.start .disabled) = (true, ctx) ∧
      ctx.objects.head? = (select holds obj path).head? ∧ (firstMatch = false → ctx.objects = select holds obj path) :=
  query_of_answers (fun _ _ expression _ => hfilters expression) obj firstMatch

end

end

/-- The same for the filters as they are parsed, in a document whose filters do not fail. -/
theorem document_query_selects {D : Type} {P : Platform D} {root : JsonObj D} {path : List (Segment Expression)}
    (h : ∀ segment ∈ path, ∀ expression, segment.data = .matchExpression expression →
      ∀ value, (evaluate P root expression value).isSome) (firstMatch : Bool) :
    ∃ ctx, queryContents (documentFilters P root) firstMatch root [] path (.start .disabled) = (true, ctx) ∧
      ctx.objects.head? = (select (fun e value => evaluate P root e value = some true) root path).head? ∧
        (firstMatch = false → ctx.objects = select (fun e value => evaluate P root e value = some true) root path) := by
  refine query_of_answers (fun segment hsegment expression hdata value => ?_) root firstMatch
  obtain ⟨result, hresult⟩ := Option.isSome_iff_exists.mp (h segment hsegment expression hdata value)
  change evaluate P root expression value = _
  rw [hresult]
  cases result <;> rfl

def containers : Filters Unit ℤ := ⟨fun _ value => some (isContainer value), fun _ => none⟩

def nested : JsonObj ℤ :=
  .object [(['a'], .array [.null, .array [.array []], .object [(['b'], .array [])]]), (['c'], .object [])]

/-- `$.a[-2:]..[?()]` for the filter that takes containers. -/
def nestedPath : List (Segment Unit) :=
  [⟨.matchNames [['a']], false⟩, ⟨.matchRange (some (-2)) none, false⟩, ⟨.matchExpression (), true⟩]

theorem containers_selected :
    (∃ ctx, queryContents containers false nested [] nestedPath (.start .disabled) = (true, ctx) ∧
      ctx.objects = [⟨['0'], .array []⟩, ⟨['b'], .array []⟩]) ∧
    ∃ ctx, queryContents containers true nested [] nestedPath (.start .disabled) = (true, ctx) ∧
      ctx.objects.head? = some ⟨['0'], .array []⟩ := by
  have hfilters : ∀ expression value, containers.evaluate expression value = some (isContainer value) := fun _ _ => rfl
  obtain ⟨ctx, hwalk, -, hall⟩ := query_selects hfilters nested nestedPath false
  obtain ⟨ctx', hwalk', hhead, -⟩ := query_selects hfilters nested nestedPath true
  exact ⟨⟨ctx, hwalk, hall rfl⟩, ctx', hwalk', hhead⟩

end Glaber.Jsonpath
