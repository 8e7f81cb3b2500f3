import Glaber.Json.Copies
import Glaber.Str.Buffer

/-! The target of a dispatched value (`pp_execute_dispatch.c`, `pp_execute_json_discovery.c`): the parameters of the step and
the name that a JSON text gives. A result is missing where the code writes past the end of a buffer. -/

namespace Glaber.Preproc

open Json Str

section

def maxParams : ℕ := 16

structure PreprocParams where
  params : List (List Char)
  fits : params.length ≤ maxParams

def strtok (delim : Char) (text : List Char) : Option (List Char × List Char) :=
  match text.dropWhile (· = delim) with
  | [] => none
  | p@(_ :: _) => some (p.takeWhile (· ≠ delim), (p.dropWhile (· ≠ delim)).tail)

def parseParamsLoop : ℕ → List Char → PreprocParams → Option PreprocParams
  | 0, _, params => some params
  | fuel + 1, text, params =>
    match strtok '\n' text with
    | none => some params
    | some (token, rest) =>
      if h : params.params.length < maxParams then
        parseParamsLoop fuel rest ⟨params.params ++ [token], by simpa using h⟩
      else none

def itemPreprocParseParams (paramsStr : Option (List Char)) : Option (PreprocParams × ℤ) :=
  match paramsStr with
  | none => some (⟨[], by simp⟩, -1)
  | some text => (parseParamsLoop (text.length + 1) text ⟨[], by simp⟩).map fun params => (params, params.params.length)

end

section

def zbxMaxHostnameLen : ℕ := 128

abbrev HostnameBuffer := Buffer zbxMaxHostnameLen

def braces (hostParam : List Char) : Option (List Char × List Char × List Char) :=
  match hostParam.dropWhile (· ≠ '\x7b') with
  | [] => none
  | _ :: p =>
    match p.dropWhile (· ≠ '\x7d') with
    | [] => none
    | _ :: behind => some (hostParam.takeWhile (· ≠ '\x7b'), p.takeWhile (· ≠ '\x7d'), behind)

def valueByNameInto {room : ℕ} (buffer : Buffer room) (jp : JsonParse) (name : List Char) (size : ℕ) :
    Option (Option (Buffer room)) :=
  match pairByName jp name with
  | none => some none
  | some p =>
    if room < decodeValueWritten p size then none
    else match decodeValue p size with
      | none => some none
      | some (string, _) => (buffer.write 0 (cString string)).map some

variable (jsonpathQuery : JsonParse → List Char → Option (Option (List Char))) (hostname hostfield hostvalue : HostnameBuffer)

def appendValue (hostname : HostnameBuffer) (alloc : ℕ) (value behind : List Char) : Option HostnameBuffer := do
  let (hostname, written) ← hostname.snprintf alloc zbxMaxHostnameLen value
  let alloc := alloc + written
  let (hostname, _) ← hostname.snprintf alloc (zbxMaxHostnameLen - alloc) behind
  return hostname

def copyBefore (hostname : HostnameBuffer) (hostParam before : List Char) : Option HostnameBuffer :=
  if before = [] then some hostname else hostname.strlcpy hostParam (before.length + 1)

def nameFromBraces (jp : JsonParse) (hostParam before field behind : List Char) : Option (Option HostnameBuffer) :=
  if field = [] then some none
  else do
    let hostfield ← hostfield.strlcpy (field ++ '\x7d' :: behind) (field.length + 1)
    let hostname ← copyBefore hostname hostParam before
    if hostfield.text.head? = some '$' then
      match jsonpathQuery jp hostfield.text with
      | none => return none
      | some output => return some (← appendValue hostname before.length (printed output) behind)
    else
      match ← valueByNameInto hostvalue jp hostfield.text zbxMaxHostnameLen with
      | none => return none
      | some hostvalue => return some (← appendValue hostname before.length hostvalue.text behind)

def getParamNameFromJson (json hostParam : Option (List Char)) : Option (Option HostnameBuffer) :=
  match json, hostParam with
  | some json, some hostParam =>
    match jsonOpen json with
    | none => some none
    | some jp =>
      match braces hostParam with
      | some (before, field, behind) => nameFromBraces jsonpathQuery hostname hostfield hostvalue jp hostParam before field behind
      | none =>
        if hostParam.head? = some '$' then
          match jsonpathQuery jp hostParam with
          | none => some none
          | some output => (hostname.snprintf 0 zbxMaxHostnameLen (printed output)).map fun hostname => some hostname.1
        else valueByNameInto hostname jp hostParam 256
  | _, _ => some none

end

section

variable (jsonpathQuery : JsonParse → List Char → Option (Option (List Char)))

def filledLines (text : List Char) : List (List Char) := (text.splitOn '\n').filter (· ≠ [])

def FieldExists (jp : JsonParse) (field : List Char) : Prop :=
  if field.head? = some '$' then ∃ value, jsonpathQuery jp field = some (some value) else ∃ p, pairByName jp field = some p

def FieldValue (jp : JsonParse) (field value : List Char) : Prop :=
  if field.head? = some '$' then jsonpathQuery jp field = some (some value)
  else ∃ p size text type, pairByName jp field = some p ∧ decodeValue p size = some (text, type) ∧ value = cString text

structure NamesTarget (json hostParam : Option (List Char)) (run : Option (Option HostnameBuffer)) : Prop where
  written : run ≠ none
  target : ∀ text jp before field behind, json = some text → jsonOpen text = some jp →
    hostParam = some (before ++ '\x7b' :: (field ++ '\x7d' :: behind)) → '\x7b' ∉ before → '\x7d' ∉ field →
      FieldExists jsonpathQuery jp field → ∃ value result, FieldValue jsonpathQuery jp field value ∧
        run = some (some result) ∧ result.text = (before ++ (value ++ behind)).take (zbxMaxHostnameLen - 1)

def LengthsFit (jp : JsonParse) (hostParam : List Char) : Prop :=
  match braces hostParam with
  | some (before, field, _) =>
    if field = [] then pairByName jp [] = none
    else before.length < zbxMaxHostnameLen ∧ field.length < zbxMaxHostnameLen ∧
      if field.head? = some '$' then ∀ output, jsonpathQuery jp field = some output →
        before = [] ∨ before.length + (printed output).length < zbxMaxHostnameLen
      else ∀ p, pairByName jp field = some p → ∃ size text type, decodeValue p size = some (text, type) ∧
        text.length < zbxMaxHostnameLen ∧ before.length + (cString text).length < zbxMaxHostnameLen
  | none => hostParam.head? = some '$' ∨ ∀ p size text type, pairByName jp hostParam = some p →
      decodeValue p size = some (text, type) → text.length < zbxMaxHostnameLen ∨ jsonType p ≠ .string ∧ 256 ≤ text.length

end

section

lemma filledLines_delim (text : List Char) : filledLines ('\n' :: text) = filledLines text := by
  rw [filledLines, List.splitOn_cons_eq_if_modifyHead]
  rfl

lemma strtok_none {text : List Char} (h : strtok '\n' text = none) : filledLines text = [] := by
  induction text with
  | nil => rfl
  | cons c text ih =>
    by_cases hc : c = '\n'
    · subst hc
      rw [filledLines_delim]
      exact ih (by simpa [strtok] using h)
    · simp [strtok, hc] at h

lemma strtok_some {text token rest : List Char} (h : strtok '\n' text = some (token, rest)) :
    filledLines text = token :: filledLines rest ∧ rest.length < text.length := by
  induction text with
  | nil => cases h
  | cons c text ih =>
    by_cases hc : c = '\n'
    · subst hc
      rw [filledLines_delim]
      obtain ⟨hlines, hlength⟩ := ih (by simpa [strtok] using h)
      exact ⟨hlines, hlength.trans (Nat.lt_succ_self _)⟩
    · have hnone : (c :: text).dropWhile (· = '\n') = c :: text := List.dropWhile_cons_of_neg (by simpa using hc)
      rw [strtok, hnone] at h
      obtain ⟨htoken, hrest⟩ := Prod.mk.inj (Option.some.inj h)
      have hnot : '\n' ∉ token := by
        rw [← htoken]
        intro hmem
        simpa using List.mem_takeWhile_imp hmem
      have hne : token ≠ [] := by
        rw [← htoken, List.takeWhile_cons_of_pos (by simpa using hc)]
        exact List.cons_ne_nil _ _
      have hsplit : c :: text = token ++ (c :: text).dropWhile (· ≠ '\n') := by
        rw [← htoken, List.takeWhile_append_dropWhile]
      cases hbehind : (c :: text).dropWhile (· ≠ '\n') with
      | nil =>
        rw [hbehind, List.append_nil] at hsplit
        obtain rfl : [] = rest := by rw [← hrest, hbehind, List.tail_nil]
        rw [hsplit, filledLines, List.splitOn_eq_singleton hnot]
        refine ⟨by simp [hne, filledLines], ?_⟩
        exact List.length_pos_of_ne_nil hne
      | cons d behind =>
        obtain rfl : d = '\n' := by
          have hd := List.head?_dropWhile_not (· ≠ '\n') (c :: text)
          rw [hbehind] at hd
          simpa using hd
        obtain rfl : behind = rest := by rw [← hrest, hbehind, List.tail_cons]
        rw [hbehind] at hsplit
        rw [hsplit, filledLines, List.splitOn_append_cons_self_of_not_mem hnot]
        refine ⟨by simp [hne, filledLines], ?_⟩
        simp only [List.length_append, List.length_cons]
        omega

lemma parseParamsLoop_none_iff {fuel : ℕ} {text : List Char} {params : PreprocParams} (hfuel : text.length < fuel) :
    parseParamsLoop fuel text params = none ↔ maxParams < params.params.length + (filledLines text).length := by
  induction fuel generalizing text params with
  | zero => omega
  | succ fuel ih =>
    have hfits := params.fits
    rw [parseParamsLoop]
    cases htoken : strtok '\n' text with
    | none =>
      rw [strtok_none htoken]
      exact iff_of_false (by simp) (by simpa using hfits)
    | some r =>
      obtain ⟨token, rest⟩ := r
      obtain ⟨hlines, hlength⟩ := strtok_some htoken
      dsimp only
      rw [hlines]
      split_ifs with hroom
      · rw [ih (by omega)]
        simp only [List.length_append, List.length_cons, List.length_nil]
        omega
      · refine iff_of_true rfl ?_
        simp only [List.length_cons]
        omega

lemma parseParams_none_iff (text : List Char) :
    itemPreprocParseParams (some text) = none ↔ maxParams < (filledLines text).length := by
  rw [itemPreprocParseParams, Option.map_eq_none_iff, parseParamsLoop_none_iff (Nat.lt_succ_self _)]
  simp

end

section

lemma braces_append {before field behind : List Char} (hbefore : '\x7b' ∉ before) (hfield : '\x7d' ∉ field) :
    braces (before ++ '\x7b' :: (field ++ '\x7d' :: behind)) = some (before, field, behind) := by
  have htake : ∀ {c : Char} {text : List Char} (rest : List Char), c ∉ text →
      (text ++ c :: rest).takeWhile (· ≠ c) = text ∧ (text ++ c :: rest).dropWhile (· ≠ c) = c :: rest := by
    intro c text rest hc
    have hall : ∀ d ∈ text, decide (d ≠ c) = true := by
      intro d hd
      simp only [ne_eq, decide_not, Bool.not_eq_true', decide_eq_false_iff_not]
      rintro rfl
      exact hc hd
    rw [List.takeWhile_append_of_pos hall, List.dropWhile_append_of_pos hall]
    simp
  obtain ⟨hbefore, hrest⟩ := htake (field ++ '\x7d' :: behind) hbefore
  obtain ⟨hfield, hbehind⟩ := htake behind hfield
  rw [braces, hrest]
  dsimp only
  rw [hbehind, hbefore, hfield]

lemma append_of_braces {hostParam before field behind : List Char} (h : braces hostParam = some (before, field, behind)) :
    hostParam = before ++ '\x7b' :: (field ++ '\x7d' :: behind) ∧ '\x7b' ∉ before ∧ '\x7d' ∉ field := by
  have hsplit : ∀ {c d : Char} {text rest : List Char}, text.dropWhile (· ≠ c) = d :: rest →
      text = text.takeWhile (· ≠ c) ++ c :: rest := by
    intro c d text rest hdrop
    obtain rfl : d = c := by
      have hd := List.head?_dropWhile_not (· ≠ c) text
      rw [hdrop] at hd
      simpa using hd
    rw [← hdrop, List.takeWhile_append_dropWhile]
  have hnot : ∀ {c : Char} {text : List Char}, c ∉ text.takeWhile (· ≠ c) := by
    intro c text hmem
    simpa using List.mem_takeWhile_imp hmem
  unfold braces at h
  split at h
  · cases h
  next c p hopen =>
    split at h
    · cases h
    next d behind' hclose =>
      simp only [Option.some.injEq, Prod.mk.injEq] at h
      obtain ⟨rfl, rfl, rfl⟩ := h
      rw [← hsplit hclose]
      exact ⟨hsplit hopen, hnot, hnot⟩

variable {hostname : HostnameBuffer} {before : List Char}

lemma appendValue_cases (hbefore : hostname.text.take before.length = before) (value behind : List Char) :
    (before.length + (value.take 127).length < zbxMaxHostnameLen → ∃ result,
      appendValue hostname before.length value behind = some result ∧
        result.text = before ++ (value.take 127 ++ behind.take (127 - (before.length + (value.take 127).length)))) ∧
    (zbxMaxHostnameLen ≤ before.length + (value.take 127).length → appendValue hostname before.length value behind = none) := by
  have hcount : zbxMaxHostnameLen - 1 = 127 := rfl
  have hsize : zbxMaxHostnameLen = 128 := rfl
  constructor
  · intro hfits
    obtain ⟨first, hfirst, htext⟩ : ∃ first : HostnameBuffer,
        hostname.write before.length (value.take 127) = some first ∧ first.text = before ++ value.take 127 := by
      refine ⟨⟨before ++ value.take 127, by simpa using hfits⟩, ?_, rfl⟩
      rw [Buffer.write_some_iff, hbefore]
      exact ⟨hfits, rfl⟩
    let alloc := before.length + (value.take 127).length
    have hroom : alloc + (behind.take (zbxMaxHostnameLen - alloc - 1)).length < zbxMaxHostnameLen := by
      have hle := List.length_take_le (zbxMaxHostnameLen - alloc - 1) behind
      have hlt : alloc < zbxMaxHostnameLen := hfits
      omega
    have hreached : first.text.take alloc = before ++ value.take 127 := by
      rw [htext, List.take_of_length_le]
      rw [List.length_append]
    obtain ⟨second, hsecond, hresult⟩ : ∃ second : HostnameBuffer,
        first.write alloc (behind.take (zbxMaxHostnameLen - alloc - 1)) = some second ∧
          second.text = before ++ (value.take 127 ++ behind.take (127 - alloc)) := by
      refine ⟨⟨before ++ (value.take 127 ++ behind.take (127 - alloc)), ?_⟩, ?_, rfl⟩
      · have hlength : (before ++ (value.take 127 ++ behind.take (127 - alloc))).length =
            alloc + (behind.take (127 - alloc)).length := by
          rw [List.length_append, List.length_append, ← Nat.add_assoc]
        have hle := List.length_take_le (127 - alloc) behind
        have hlt : alloc < zbxMaxHostnameLen := hfits
        omega
      · rw [Buffer.write_some_iff, hreached]
        refine ⟨hroom, ?_⟩
        rw [List.append_assoc, Nat.sub_right_comm]
        rfl
    refine ⟨second, ?_, hresult⟩
    rw [appendValue, Buffer.snprintf, hcount, hfirst]
    simp only [Option.map_some, Option.bind_eq_bind, Option.bind_some, Buffer.snprintf]
    rw [hsecond]
    rfl
  · intro hlong
    rw [appendValue, Buffer.snprintf, hcount, Buffer.write_none_iff.2 hlong]
    rfl

lemma appendValue_iff (hbefore : hostname.text.take before.length = before) (hlength : before.length < zbxMaxHostnameLen)
    (value behind : List Char) :
    (before = [] ∨ before.length + value.length < zbxMaxHostnameLen → ∃ result,
      appendValue hostname before.length value behind = some result ∧
        result.text = (before ++ (value ++ behind)).take (zbxMaxHostnameLen - 1)) ∧
    (¬ (before = [] ∨ before.length + value.length < zbxMaxHostnameLen) →
      appendValue hostname before.length value behind = none) := by
  obtain ⟨hfits, hlong⟩ := appendValue_cases hbefore value behind
  have hsize : zbxMaxHostnameLen = 128 := rfl
  have htake : (value.take 127).length = min 127 value.length := List.length_take
  constructor
  · intro hroom
    obtain ⟨result, hresult, htext⟩ := hfits (by
      rcases hroom with rfl | hroom
      · simp only [List.length_nil]
        omega
      · omega)
    refine ⟨result, hresult, ?_⟩
    rw [htext, List.take_append, List.take_append, List.take_of_length_le (show before.length ≤ zbxMaxHostnameLen - 1 by omega)]
    have hcut : value.take 127 = value.take (zbxMaxHostnameLen - 1 - before.length) := by
      rcases hroom with rfl | hroom
      · rfl
      · rw [List.take_of_length_le (by omega), List.take_of_length_le (by omega)]
    have hrest : 127 - (before.length + (value.take 127).length) = zbxMaxHostnameLen - 1 - before.length - value.length := by
      rcases hroom with rfl | hroom
      · simp only [List.length_nil]
        omega
      · omega
    rw [← hcut, hrest]
  · intro hroom
    apply hlong
    have hne : 0 < before.length := List.length_pos_of_ne_nil fun h => hroom (.inl h)
    have hover : ¬ before.length + value.length < zbxMaxHostnameLen := fun h => hroom (.inr h)
    omega

end

section

variable {jsonpathQuery : JsonParse → List Char → Option (Option (List Char))} {jp : JsonParse}

def Names (jsonpathQuery : JsonParse → List Char → Option (Option (List Char))) (jp : JsonParse) (before field behind : List Char)
    (run : Option (Option HostnameBuffer)) : Prop :=
  run ≠ none ∧ (FieldExists jsonpathQuery jp field → ∃ value result, FieldValue jsonpathQuery jp field value ∧
    run = some (some result) ∧ result.text = (before ++ (value ++ behind)).take (zbxMaxHostnameLen - 1))

lemma not_names_missing {before field behind : List Char} (hexists : FieldExists jsonpathQuery jp field) :
    ¬ Names jsonpathQuery jp before field behind (some none) := by
  rintro ⟨-, hnamed⟩
  obtain ⟨value, result, -, hrun, -⟩ := hnamed hexists
  cases hrun

lemma names_missing {before field behind : List Char} (hmissing : ¬ FieldExists jsonpathQuery jp field) :
    Names jsonpathQuery jp before field behind (some none) :=
  ⟨by simp, fun hexists => absurd hexists hmissing⟩

lemma not_names_overflow {before field behind : List Char} : ¬ Names jsonpathQuery jp before field behind none :=
  fun h => h.1 rfl

lemma names_appended {hostname : HostnameBuffer} {before field behind value : List Char}
    (hbefore : hostname.text.take before.length = before) (hlength : before.length < zbxMaxHostnameLen)
    (hvalue : FieldExists jsonpathQuery jp field → FieldValue jsonpathQuery jp field value) :
    Names jsonpathQuery jp before field behind ((appendValue hostname before.length value behind).map some) ↔
      before = [] ∨ before.length + value.length < zbxMaxHostnameLen := by
  obtain ⟨hfits, hlong⟩ := appendValue_iff hbefore hlength value behind
  by_cases hroom : before = [] ∨ before.length + value.length < zbxMaxHostnameLen
  · obtain ⟨result, hresult, htext⟩ := hfits hroom
    rw [hresult]
    refine iff_of_true ⟨by simp, fun hexists => ?_⟩ hroom
    exact ⟨value, result, hvalue hexists, rfl, htext⟩
  · rw [hlong hroom]
    exact iff_of_false not_names_overflow hroom

lemma names_by_name {hostname hostvalue : HostnameBuffer} {before field behind : List Char} (hname : field.head? ≠ some '$')
    (hbefore : hostname.text.take before.length = before) (hlength : before.length < zbxMaxHostnameLen) :
    Names jsonpathQuery jp before field behind (do
      match ← valueByNameInto hostvalue jp field zbxMaxHostnameLen with
      | none => return none
      | some hostvalue => return some (← appendValue hostname before.length hostvalue.text behind)) ↔
    ∀ p, pairByName jp field = some p → ∃ size text type, decodeValue p size = some (text, type) ∧
      text.length < zbxMaxHostnameLen ∧ before.length + (cString text).length < zbxMaxHostnameLen := by
  have hexists : FieldExists jsonpathQuery jp field ↔ ∃ p, pairByName jp field = some p := by
    rw [FieldExists, if_neg hname]
  cases hp : pairByName jp field with
  | none =>
    rw [valueByNameInto, hp]
    refine iff_of_true (names_missing ?_) (by simp)
    rw [hexists, hp]
    simp
  | some p =>
    have hthere : FieldExists jsonpathQuery jp field := hexists.2 ⟨p, hp⟩
    have hroom : ¬ zbxMaxHostnameLen < decodeValueWritten p zbxMaxHostnameLen := not_lt.2 (decodeValueWritten_le p _)
    cases hlen : valueLength p with
    | none =>
      -- an array or an object: it is there, and no name comes of it
      have hnone := fun size => (decodeValue_none hlen size).1
      rw [valueByNameInto, hp]
      dsimp only
      rw [if_neg hroom, hnone]
      refine iff_of_false (not_names_missing hthere) fun hall => ?_
      obtain ⟨size, text, type, hdecode, -⟩ := hall p rfl
      rw [hnone] at hdecode
      cases hdecode
    | some len =>
      obtain ⟨text, htext⟩ := valueText_exists hlen
      have hall : (∀ p', some p = some p' → ∃ size text type, decodeValue p' size = some (text, type) ∧
          text.length < zbxMaxHostnameLen ∧ before.length + (cString text).length < zbxMaxHostnameLen) ↔
          text.length < zbxMaxHostnameLen ∧ before.length + (cString text).length < zbxMaxHostnameLen := by
        constructor
        · intro hall
          obtain ⟨size, text', type, hdecode, hlengths⟩ := hall p rfl
          rwa [(htext.decode_iff.1 hdecode).1] at hlengths
        · rintro hlengths p' hp'
          obtain rfl := Option.some.inj hp'
          exact ⟨text.length + 1, text, _, (htext.fits _ (Nat.lt_succ_self _)).1, hlengths⟩
      rw [hall, valueByNameInto, hp]
      dsimp only
      rw [if_neg hroom]
      by_cases hshort : text.length < zbxMaxHostnameLen
      · have hstring := length_cString_le text
        obtain ⟨copied, hcopied, hcopiedText⟩ : ∃ copied : HostnameBuffer,
            hostvalue.write 0 (cString text) = some copied ∧ copied.text = cString text := by
          refine ⟨⟨cString text, by omega⟩, ?_, rfl⟩
          rw [Buffer.write_some_iff]
          exact ⟨by omega, by simp⟩
        have hvalue : FieldValue jsonpathQuery jp field (cString text) := by
          rw [FieldValue, if_neg hname]
          exact ⟨p, text.length + 1, text, _, hp, (htext.fits _ (Nat.lt_succ_self _)).1, rfl⟩
        have hnames : Names jsonpathQuery jp before field behind
            ((appendValue hostname before.length (cString text) behind).map some) ↔
              before = [] ∨ before.length + (cString text).length < zbxMaxHostnameLen :=
          names_appended hbefore hlength fun _ => hvalue
        have hlengths : text.length < zbxMaxHostnameLen ∧ before.length + (cString text).length < zbxMaxHostnameLen ↔
            before = [] ∨ before.length + (cString text).length < zbxMaxHostnameLen := by
          refine ⟨fun h => .inr h.2, ?_⟩
          rintro (rfl | h)
          · exact ⟨hshort, by simp only [List.length_nil]; omega⟩
          · exact ⟨hshort, h⟩
        rw [hlengths, ← hnames, (htext.fits _ hshort).1]
        dsimp only
        rw [hcopied, ← hcopiedText]
        cases happended : appendValue hostname before.length copied.text behind with
        | none => simp [happended]
        | some result => simp [happended]
      · rw [(htext.long _ (not_lt.1 hshort)).1]
        exact iff_of_false (not_names_missing hthere) fun h => hshort h.1

lemma copyBefore_cases (hostname : HostnameBuffer) {hostParam before field behind : List Char}
    (hbraces : braces hostParam = some (before, field, behind)) :
    (before.length < zbxMaxHostnameLen → ∃ first, copyBefore hostname hostParam before = some first ∧
      first.text.take before.length = before) ∧
    (zbxMaxHostnameLen ≤ before.length → copyBefore hostname hostParam before = none) := by
  obtain ⟨rfl, -, -⟩ := append_of_braces hbraces
  unfold copyBefore
  obtain ⟨hfits, hlong⟩ := hostname.strlcpy_front before ('\x7b' :: (field ++ '\x7d' :: behind))
  by_cases hempty : before = []
  · subst hempty
    refine ⟨fun _ => ⟨hostname, by simp, by simp⟩, fun h => absurd h (by decide)⟩
  · rw [if_neg hempty]
    refine ⟨fun h => ?_, hlong⟩
    obtain ⟨first, hfirst, htext⟩ := hfits h
    exact ⟨first, hfirst, by rw [htext, List.take_length]⟩

variable (jsonpathQuery) in
lemma nameFromBraces_iff (hostname hostfield hostvalue : HostnameBuffer) {hostParam before field behind : List Char}
    (hbraces : braces hostParam = some (before, field, behind)) :
    Names jsonpathQuery jp before field behind
        (nameFromBraces jsonpathQuery hostname hostfield hostvalue jp hostParam before field behind) ↔
      LengthsFit jsonpathQuery jp hostParam := by
  rw [LengthsFit, hbraces]
  dsimp only
  unfold nameFromBraces
  by_cases hempty : field = []
  · rw [if_pos hempty, if_pos hempty]
    have hexists : FieldExists jsonpathQuery jp field ↔ ∃ p, pairByName jp [] = some p := by
      rw [FieldExists, hempty]
      simp
    cases hp : pairByName jp [] with
    | none =>
      refine iff_of_true (names_missing ?_) rfl
      rw [hexists, hp]
      simp
    | some p => exact iff_of_false (not_names_missing (hexists.2 ⟨p, hp⟩)) (by simp)
  · rw [if_neg hempty, if_neg hempty]
    obtain ⟨hfield, hfieldLong⟩ := hostfield.strlcpy_front field ('\x7d' :: behind)
    by_cases hfieldFits : field.length < zbxMaxHostnameLen
    · obtain ⟨copiedField, hcopiedField, hfieldText⟩ := hfield hfieldFits
      rw [hcopiedField, and_iff_right hfieldFits]
      simp only [Option.bind_eq_bind, Option.bind_some, hfieldText]
      obtain ⟨hbefore, hbeforeLong⟩ := copyBefore_cases hostname hbraces
      by_cases hbeforeFits : before.length < zbxMaxHostnameLen
      · obtain ⟨first, hfirst, hfirstText⟩ := hbefore hbeforeFits
        rw [hfirst, and_iff_right hbeforeFits]
        dsimp only [Option.bind_some]
        by_cases hpath : field.head? = some '$'
        · rw [if_pos hpath, if_pos hpath]
          cases hquery : jsonpathQuery jp field with
          | none =>
            refine iff_of_true (names_missing ?_) (by simp)
            rw [FieldExists, if_pos hpath, hquery]
            simp
          | some output =>
            have hall : (∀ output', some output = some output' →
                before = [] ∨ before.length + (printed output').length < zbxMaxHostnameLen) ↔
                before = [] ∨ before.length + (printed output).length < zbxMaxHostnameLen := by simp
            rw [hall]
            have hnames : Names jsonpathQuery jp before field behind
                ((appendValue first before.length (printed output) behind).map some) ↔
                  before = [] ∨ before.length + (printed output).length < zbxMaxHostnameLen := by
              apply names_appended hfirstText hbeforeFits
              intro hexists
              rw [FieldExists, if_pos hpath, hquery] at hexists
              obtain ⟨value, hvalue⟩ := hexists
              obtain rfl := Option.some.inj hvalue
              rw [FieldValue, if_pos hpath, hquery]
              rfl
            rw [← hnames]
            cases happended : appendValue first before.length (printed output) behind with
            | none => simp [happended]
            | some result => simp [happended]
        · rw [if_neg hpath, if_neg hpath]
          exact names_by_name hpath hfirstText hbeforeFits
      · rw [hbeforeLong (not_lt.1 hbeforeFits)]
        exact iff_of_false not_names_overflow fun h => hbeforeFits h.1
    · rw [hfieldLong (not_lt.1 hfieldFits)]
      exact iff_of_false not_names_overflow fun h => hfieldFits h.2.1

lemma valueByNameInto_none_iff (hostname : HostnameBuffer) (name : List Char) :
    valueByNameInto hostname jp name 256 ≠ none ↔ ∀ p size text type, pairByName jp name = some p →
      decodeValue p size = some (text, type) → text.length < zbxMaxHostnameLen ∨ jsonType p ≠ .string ∧ 256 ≤ text.length := by
  have hsize : zbxMaxHostnameLen = 128 := rfl
  cases hp : pairByName jp name with
  | none =>
    rw [valueByNameInto, hp]
    simp
  | some p =>
    rw [valueByNameInto, hp]
    dsimp only
    cases hlen : valueLength p with
    | none =>
      have hnone := fun size => (decodeValue_none hlen size).1
      rw [(decodeValue_none hlen 256).2, if_neg (by omega), hnone]
      refine iff_of_true (by simp) fun p' size text type hp' hdecode => ?_
      obtain rfl := Option.some.inj hp'
      rw [hnone] at hdecode
      cases hdecode
    | some len =>
      obtain ⟨text, htext⟩ := valueText_exists hlen
      have hall : (∀ p' size text' type, some p = some p' → decodeValue p' size = some (text', type) →
          text'.length < zbxMaxHostnameLen ∨ jsonType p' ≠ .string ∧ 256 ≤ text'.length) ↔
          text.length < zbxMaxHostnameLen ∨ jsonType p ≠ .string ∧ 256 ≤ text.length := by
        constructor
        · exact fun hall => hall p _ text _ rfl (htext.fits _ (Nat.lt_succ_self _)).1
        · rintro hlength p' size text' type hp' hdecode
          obtain rfl := Option.some.inj hp'
          rwa [(htext.decode_iff.1 hdecode).1]
      rw [hall]
      by_cases hshort : text.length < 256
      · obtain ⟨hdecode, hwritten⟩ := htext.fits 256 hshort
        have hstring := length_cString_le text
        rw [hwritten, hdecode]
        split_ifs with hroom
        · exact iff_of_false (by simp) (by omega)
        · refine iff_of_true ?_ (by omega)
          rw [ne_eq, Option.map_eq_none_iff, Buffer.write_none_iff]
          omega
      · have hlong := not_lt.1 hshort
        rw [(htext.long 256 hlong).1]
        by_cases hstring : jsonType p = .string
        · have hwritten := htext.string hstring 256 hlong
          rw [if_pos (by omega)]
          exact iff_of_false (by simp) (by simp [hstring]; omega)
        · rw [htext.other hstring 256 hlong, if_neg (by omega)]
          exact iff_of_true (by simp) (.inr ⟨hstring, hlong⟩)

end

section

variable (jsonpathQuery : JsonParse → List Char → Option (Option (List Char)))

lemma namesTarget_iff_names {text hostParam before field behind : List Char} {jp : JsonParse}
    {run : Option (Option HostnameBuffer)} (hopen : jsonOpen text = some jp)
    (hbraces : braces hostParam = some (before, field, behind)) :
    NamesTarget jsonpathQuery (some text) (some hostParam) run ↔ Names jsonpathQuery jp before field behind run := by
  obtain ⟨rfl, hbefore, hfield⟩ := append_of_braces hbraces
  constructor
  · exact fun h => ⟨h.written, h.target text jp before field behind rfl hopen rfl hbefore hfield⟩
  · rintro ⟨hwritten, hnamed⟩
    refine ⟨hwritten, ?_⟩
    rintro text' jp' before' field' behind' htext hopen' hparam hbefore' hfield'
    obtain rfl := Option.some.inj htext
    obtain rfl : jp = jp' := Option.some.inj (hopen.symm.trans hopen')
    rw [Option.some.inj hparam, braces_append hbefore' hfield'] at hbraces
    simp only [Option.some.injEq, Prod.mk.injEq] at hbraces
    obtain ⟨rfl, rfl, rfl⟩ := hbraces
    exact hnamed

lemma namesTarget_iff_written {text hostParam : List Char} {run : Option (Option HostnameBuffer)}
    (hbraces : braces hostParam = none) :
    NamesTarget jsonpathQuery (some text) (some hostParam) run ↔ run ≠ none := by
  refine ⟨fun h => h.written, fun hwritten => ⟨hwritten, ?_⟩⟩
  rintro text' jp' before' field' behind' - - hparam hbefore' hfield'
  rw [Option.some.inj hparam, braces_append hbefore' hfield'] at hbraces
  cases hbraces

lemma getParamName_iff (hostname hostfield hostvalue : HostnameBuffer) (json hostParam : Option (List Char)) :
    NamesTarget jsonpathQuery json hostParam (getParamNameFromJson jsonpathQuery hostname hostfield hostvalue json hostParam) ↔
      ∀ text param jp, json = some text → hostParam = some param → jsonOpen text = some jp →
        LengthsFit jsonpathQuery jp param := by
  cases json with
  | none => exact iff_of_true ⟨by simp [getParamNameFromJson], by simp⟩ (by simp)
  | some text =>
    cases hostParam with
    | none => exact iff_of_true ⟨by simp [getParamNameFromJson], by simp⟩ (by simp)
    | some param =>
      cases hopen : jsonOpen text with
      | none =>
        refine iff_of_true ⟨by simp [getParamNameFromJson, hopen], ?_⟩ ?_
        · rintro text' jp before field behind htext hopen'
          rw [← Option.some.inj htext, hopen] at hopen'
          cases hopen'
        · rintro text' param' jp htext - hopen'
          rw [← Option.some.inj htext, hopen] at hopen'
          cases hopen'
      | some jp =>
        have hall : (∀ text' param' jp', some text = some text' → some param = some param' → jsonOpen text' = some jp' →
            LengthsFit jsonpathQuery jp' param') ↔ LengthsFit jsonpathQuery jp param := by
          refine ⟨fun h => h text param jp rfl rfl hopen, ?_⟩
          rintro hfit text' param' jp' htext hparam hopen'
          obtain rfl := Option.some.inj htext
          obtain rfl := Option.some.inj hparam
          rwa [← Option.some.inj (hopen.symm.trans hopen')]
        rw [hall]
        cases hbraces : braces param with
        | some parts =>
          obtain ⟨before, field, behind⟩ := parts
          rw [namesTarget_iff_names jsonpathQuery hopen hbraces, ← nameFromBraces_iff jsonpathQuery hostname hostfield hostvalue
            hbraces]
          simp only [getParamNameFromJson, hopen, hbraces]
        | none =>
          rw [namesTarget_iff_written jsonpathQuery hbraces, LengthsFit, hbraces]
          simp only [getParamNameFromJson, hopen, hbraces]
          by_cases hpath : param.head? = some '$'
          · rw [if_pos hpath]
            refine iff_of_true ?_ (.inl hpath)
            cases jsonpathQuery jp param with
            | none => simp
            | some output =>
              have hle := List.length_take_le (zbxMaxHostnameLen - 1) (printed output)
              have hsize : zbxMaxHostnameLen = 128 := rfl
              simp only [Buffer.snprintf, ne_eq, Option.map_eq_none_iff, Buffer.write_none_iff]
              omega
          · rw [if_neg hpath, valueByNameInto_none_iff]
            simp [hpath]

theorem target_names_iff :
    (∀ hostname hostfield hostvalue json hostParam, NamesTarget jsonpathQuery json hostParam
        (getParamNameFromJson jsonpathQuery hostname hostfield hostvalue json hostParam) ↔
      ∀ text param jp, json = some text → hostParam = some param → jsonOpen text = some jp →
        LengthsFit jsonpathQuery jp param) ∧
    ∀ paramsStr, itemPreprocParseParams paramsStr ≠ none ↔
      ∀ text, paramsStr = some text → (filledLines text).length ≤ maxParams := by
  refine ⟨getParamName_iff jsonpathQuery, fun paramsStr => ?_⟩
  cases paramsStr with
  | none => simp [itemPreprocParseParams]
  | some text =>
    rw [ne_eq, parseParams_none_iff, not_lt]
    simp

def emptyBuffer : HostnameBuffer := ⟨[], by decide⟩

def longParam : List Char := List.replicate 127 'h' ++ "\x7ba\x7d".toList

theorem name_leaves_buffer :
    ¬ NamesTarget (fun _ _ => none) (some "\x7b\"a\":1\x7d".toList) (some longParam)
        (getParamNameFromJson (fun _ _ => none) emptyBuffer emptyBuffer emptyBuffer (some "\x7b\"a\":1\x7d".toList)
          (some longParam)) := by
  intro h
  apply h.written
  decide +kernel

end

end Glaber.Preproc
