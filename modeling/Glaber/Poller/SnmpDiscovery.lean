import Glaber.Lib.Print
import Glaber.Poller.SnmpWalk

/-! SNMP discovery by the worker (`poller_snmp_worker_discovery.c`). -/

namespace Glaber.Poller.SnmpDiscovery

open Glaber.Lib.Print Glaber.Lib.Runs Glaber.Macros Glaber.Poller.SnmpWalk

def maxStringLen : ℕ := 2048

def nul : Char := '\x00'

/-- Macros and OIDs are kept as offsets in one buffer, in arrays of `char`. -/
structure DData where
  macroNames : List ℤ
  oids : List ℤ
  count : ℕ
  buffer : Text
deriving DecidableEq

structure Row where
  index : Text
  values : List (Option Text)

/-- A macro name is `none` where its offset is outside the buffer. -/
inductive Report where
  | error (text : Text)
  | result (rows : List (List (Option Text × Text)))

/-- The request is answered while `waiting`. `asked`, `sent` and `stored` are kept for the statements only: the requests
of the poll so far, the texts of all requests, and the walk, the index and the value of everything stored. -/
structure State where
  address : Option Text
  currentOid : ℤ
  results : List Row
  reports : List Report
  queued : Bool
  waiting : Bool
  asked : ℕ
  sent : List Text
  stored : List (ℤ × Text × Text)

structure Value where
  oid : Option Text
  value : Option Text

structure Response where
  code : ℕ
  error : Text
  values : Option (List Value)

/-- `written` says whether the worker takes a request that the event sends. -/
inductive Event where
  | start (addr : Text) (written : Bool)
  | answer (response : Response) (written : Bool)

structure Item where
  itemid : UInt64
  ifaceJsonInfo : Text

section

variable (snmpParseOid : Text → Option (List ℕ))

def isDigitalOid (oid : Text) : Bool := oid.all fun c => c = '.' || c.isDigit

def printParts (ids : List ℕ) : Text := ids.flatMap fun id : ℕ => '.' :: decimal (Int.bmod id (2 ^ 32))

def parseOid (inOid : Text) : Option Text :=
  if isDigitalOid inOid then some inOid
  else (snmpParseOid inOid).map fun ids => (printParts ids).take (maxOidLen - 1)

def macroParams : List Text → List Text
  | name :: _ :: params => name :: macroParams params
  | names => names

def asChar (n : ℕ) : ℤ := Int.bmod n 256

def addPair (d : DData) (name oid : Text) : DData where
  macroNames := d.macroNames ++ [asChar d.buffer.length]
  oids := d.oids ++ [asChar (d.buffer.length + name.length + 1)]
  count := d.count + 1
  buffer := d.buffer ++ (name ++ nul :: (oid ++ [nul]))

/-- A last macro without an OID is followed by a read outside the parameters. -/
def fillData : List Text → DData → Option (Except Text DData)
  | [], d => some (.ok d)
  | [_], _ => none
  | name :: inOid :: params, d =>
    match parseOid snmpParseOid inOid with
    | none => some (.error "Cannot translate one of discovery oids".toList)
    | some oid => fillData params (addPair d name oid)

def initDiscoveryItem (request : Option (List Text)) : Option (Except Text DData) :=
  match request with
  | none => some (.error "Invalid SNMP OID: cannot parse expression.".toList)
  | some params =>
    if params.length ≤ 1 then some (.error "Invalid parameters, should be two or more".toList)
    else
      match (macroParams params).findSome? macroError with
      | some text => some (.error text)
      | none =>
        if ¬(macroParams params).Nodup then some (.error "Invalid SNMP OID: unique macros are expected.".toList)
        else fillData snmpParseOid params ⟨[], [], 0, []⟩

end

section

variable (item : Item) (d : DData)

def textAt (offset : ℤ) : Option Text :=
  if offset < 0 then none else some ((d.buffer.drop offset.toNat).takeWhile (· ≠ nul))

def requestHead (ip : Text) : Text :=
  "\x7b\"id\":".toList ++ decimal (ld item.itemid) ++ ", \"ip\":\"".toList ++ ip ++ "\", \"oid\":\"".toList

def requestTail : Text := "\", \"type\":\"walk\", ".toList ++ item.ifaceJsonInfo ++ "\x7d".toList

def requestText (ip oid : Text) : Text := requestHead item ip ++ (oid ++ requestTail item)

variable (s : State)

def cleanDiscoveryRequest : State := { s with results := [], currentOid := -1 }

def returnItemToQueue : State := { s with queued := true }

variable (written : Bool)

def sendRequest (request : Text) (s : State) : State :=
  if written then { s with sent := s.sent ++ [request.take (maxStringLen - 1)], asked := s.asked + 1, waiting := true }
  else returnItemToQueue { s with reports := s.reports ++ [.error "Cannot send snmp request".toList] }

def startNextWalk (addr : Option Text) (s : State) : Option State :=
  if s.currentOid = -1 ∧ addr = none then some s
  else
    let s := { s with address := if s.currentOid = -1 then addr else s.address, currentOid := s.currentOid + 1 }
    if (d.count : ℤ) ≤ s.currentOid then some (returnItemToQueue (cleanDiscoveryRequest s))
    else
      (d.oids[0]?.bind (textAt d)).map fun oid => sendRequest written (requestText item (s.address.getD []) oid) s

def valueByName (field : Option Text) : Option Text := field.filter fun text => text.length < maxOidLen * 4

def indexStart (walkOid oid : Text) : Option ℕ :=
  if walkOid <+: oid then some (walkOid.length + 1)
  else if walkOid.head? = some '.' ∨ oid.head? ≠ some '.' then none
  else if walkOid <+: oid.tail then some (walkOid.length + 2)
  else none

def saveResultValue (index value : Text) (s : State) : State :=
  let store := fun row : Row => { row with values := row.values.set s.currentOid.toNat (some value) }
  { s with
    results :=
      if s.results.any (·.index = index) then s.results.map fun row => if row.index = index then store row else row
      else s.results ++ [store ⟨index, List.replicate d.count none⟩]
    stored := s.stored ++ [(s.currentOid, index, value)] }

def walkOid : Option Text :=
  if s.currentOid < 0 then none else d.oids[s.currentOid.toNat]?.bind (textAt d)

def processValue (v : Value) : Option State :=
  match valueByName v.oid, valueByName v.value with
  | some oid, some value =>
    (walkOid d s).bind fun walk =>
      match indexStart walk oid with
      | none => some s
      | some start => if start ≤ oid.length then some (saveResultValue d (oid.drop start) value s) else none
  | _, _ => some s

def rowMembers (row : Row) : List (Option Text × Text) :=
  (some "\x7b#SNMPINDEX\x7d".toList, row.index) ::
    (d.macroNames.zip row.values).filterMap fun (offset, value) => value.map fun text => (textAt d offset, text)

def submitResult : State := { s with reports := s.reports ++ [.result (s.results.map (rowMembers d))] }

def processDiscoveryResponse (values : Option (List Value)) (s : State) : Option State :=
  match values with
  | none => some s
  | some values =>
    (values.foldlM (processValue d) s).map fun s =>
      if s.currentOid + 1 = (d.count : ℤ) then cleanDiscoveryRequest (submitResult d s) else s

/-- After the last walk this is so again, as the number of the walk was reset; the item then stays out of the queue. -/
def needMoreData : Prop := s.currentOid < (d.count : ℤ) - 1

instance (s : State) : Decidable (needMoreData d s) := inferInstanceAs (Decidable (s.currentOid < _))

/-- The walk goes on from a number left behind where an error ended the poll. -/
def processResult (response : Response) (s : State) : Option State :=
  if response.code = 200 then
    (processDiscoveryResponse d response.values s).bind fun s =>
      if needMoreData d s then startNextWalk item d written none s else some (returnItemToQueue (cleanDiscoveryRequest s))
  else if response.code = 408 ∨ response.code = 503 then
    some (returnItemToQueue { s with reports := s.reports ++ [.error response.error] })
  else some s

/-- The item is polled while it is queued, and the worker answers a request once. What C leaves undefined is `none`. -/
def step : Event → Option State
  | .start addr written =>
    if s.queued then startNextWalk item d written (some addr) { s with queued := false, asked := 0 } else some s
  | .answer response written =>
    if s.waiting then processResult item d written response { s with waiting := false } else some s

def init : State where
  address := none
  currentOid := -1
  results := []
  reports := []
  queued := true
  waiting := false
  asked := 0
  sent := []
  stored := []

end

section

variable {snmpParseOid : Text → Option (List ℕ)} {params : List Text} {d d' : DData}

def isOidChar (c : Char) : Bool := c = '.' || c = '-' || c.isDigit

def fullParts (ids : List ℕ) : Text := ids.flatMap fun id : ℕ => '.' :: decimal id

def fullOid (snmpParseOid : Text → Option (List ℕ)) (inOid : Text) : Option Text :=
  if isDigitalOid inOid then some inOid else (snmpParseOid inOid).map fullParts

lemma isOidChar_of_digital {oid : Text} (h : isDigitalOid oid) : ∀ c ∈ oid, isOidChar c := by
  intro c hc
  have := List.all_eq_true.mp h c hc
  simp only [isOidChar, Bool.or_eq_true, decide_eq_true_eq] at this ⊢
  tauto

lemma isOidChar_of_parts {part : ℕ → ℤ} {ids : List ℕ} {c : Char}
    (hc : c ∈ ids.flatMap fun id : ℕ => '.' :: decimal (part id)) : isOidChar c := by
  obtain ⟨id, -, hmem⟩ := List.mem_flatMap.mp hc
  simp only [isOidChar, Bool.or_eq_true, decide_eq_true_eq]
  rcases List.mem_cons.mp hmem with hdot | hdigit
  · exact .inl (.inl hdot)
  · rcases mem_decimal hdigit with hminus | hdigit
    · exact .inl (.inr hminus)
    · exact .inr hdigit

lemma parseOid_chars {inOid oid : Text} (h : parseOid snmpParseOid inOid = some oid) : ∀ c ∈ oid, isOidChar c := by
  rw [parseOid] at h
  split_ifs at h with hdigital
  · rw [← Option.some.inj h]
    exact isOidChar_of_digital hdigital
  · obtain ⟨ids, -, rfl⟩ := Option.map_eq_some_iff.mp h
    intro c hc
    have hmem := List.mem_of_mem_take hc
    rw [printParts] at hmem
    exact isOidChar_of_parts hmem

lemma fullOid_chars {inOid oid : Text} (h : fullOid snmpParseOid inOid = some oid) : ∀ c ∈ oid, isOidChar c := by
  rw [fullOid] at h
  split_ifs at h with hdigital
  · rw [← Option.some.inj h]
    exact isOidChar_of_digital hdigital
  · obtain ⟨ids, -, rfl⟩ := Option.map_eq_some_iff.mp h
    intro c hc
    rw [fullParts] at hc
    exact isOidChar_of_parts hc

lemma macroTail_chars (tail : Text) (h : macroTail tail) :
    (∀ c ∈ tail, isMacroChar c ∨ c = '\x7d') ∧ tail.getLast? = some '\x7d' := by
  induction tail with
  | nil => cases h
  | cons c rest ih =>
    unfold macroTail at h
    rw [Bool.and_eq_true] at h
    obtain ⟨hc, hrest⟩ := h
    split at hrest
    · rename_i tail
      rw [List.isEmpty_iff.mp hrest]
      refine ⟨?_, rfl⟩
      simp [hc]
    · obtain ⟨hchars, hlast⟩ := ih hrest
      refine ⟨List.forall_mem_cons.mpr ⟨.inl hc, hchars⟩, ?_⟩
      rw [List.getLast?_cons, hlast]
      rfl

lemma discoveryMacro_chars {name : Text} (h : isDiscoveryMacro name) :
    nul ∉ name ∧ '"' ∉ name ∧ name.getLast? = some '\x7d' := by
  unfold isDiscoveryMacro at h
  split at h
  · rename_i rest
    obtain ⟨hchars, hlast⟩ := macroTail_chars rest h
    have hnot : ∀ c : Char, isMacroChar c = false → c ≠ '\x7d' → c ≠ '\x7b' → c ≠ '#' → c ∉ '\x7b' :: '#' :: rest := by
      intro c hkind hclose hopen hhash hmem
      rcases List.mem_cons.mp hmem with heq | hmem
      · exact hopen heq
      rcases List.mem_cons.mp hmem with heq | hmem
      · exact hhash heq
      rcases hchars c hmem with h | h
      · rw [hkind] at h
        cases h
      · exact hclose h
    refine ⟨hnot nul rfl (by decide) (by decide) (by decide), hnot '"' rfl (by decide) (by decide) (by decide), ?_⟩
    rw [List.getLast?_cons, List.getLast?_cons, hlast]
    rfl
  · cases h

lemma isDiscoveryMacro_of_macroError {name : Text} (h : macroError name = none) : isDiscoveryMacro name := by
  rw [macroError] at h
  split_ifs at h with hkind
  exact hkind

lemma initDiscoveryItem_ok (h : initDiscoveryItem snmpParseOid (some params) = some (.ok d)) :
    2 ≤ params.length ∧ (∀ name ∈ macroParams params, isDiscoveryMacro name) ∧
      fillData snmpParseOid params ⟨[], [], 0, []⟩ = some (.ok d) := by
  rw [initDiscoveryItem] at h
  by_cases hlength : params.length ≤ 1
  · rw [if_pos hlength] at h
    cases h
  rw [if_neg hlength] at h
  cases herror : (macroParams params).findSome? macroError with
  | some text =>
    rw [herror] at h
    cases h
  | none =>
    rw [herror] at h
    dsimp only at h
    by_cases hunique : (macroParams params).Nodup
    · rw [if_neg (not_not.mpr hunique)] at h
      refine ⟨by omega, fun name hname => ?_, h⟩
      exact isDiscoveryMacro_of_macroError (List.findSome?_eq_none_iff.mp herror name hname)
    · rw [if_pos hunique] at h
      cases h

lemma fillData_extends (h : fillData snmpParseOid params d = some (.ok d')) :
    d.oids <+: d'.oids ∧ d.buffer <+: d'.buffer ∧ d'.count = d.count + params.length / 2 := by
  induction params, d using fillData.induct snmpParseOid with
  | case1 d =>
    cases h
    exact ⟨List.prefix_refl _, List.prefix_refl _, rfl⟩
  | case2 name d => cases h
  | case3 name inOid params d hparse =>
    rw [fillData, hparse] at h
    cases h
  | case4 name inOid params d oid hparse ih =>
    rw [fillData, hparse] at h
    obtain ⟨hoids, hbuffer, hcount⟩ := ih h
    refine ⟨(List.prefix_append _ _).trans hoids, (List.prefix_append _ _).trans hbuffer, ?_⟩
    have hmore : (addPair d name oid).count = d.count + 1 := rfl
    rw [hcount, hmore, List.length_cons, List.length_cons]
    omega

lemma fillData_pair (h : fillData snmpParseOid params d = some (.ok d')) {k : ℕ} {name inOid : Text}
    (hname : params[2 * k]? = some name) (hoid : params[2 * k + 1]? = some inOid) :
    ∃ oid start, parseOid snmpParseOid inOid = some oid ∧ start ++ (name ++ nul :: (oid ++ [nul])) <+: d'.buffer ∧
      d'.oids[d.oids.length + k]? = some (asChar (start.length + name.length + 1)) ∧ (k = 0 → start = d.buffer) := by
  induction params, d using fillData.induct snmpParseOid generalizing k with
  | case1 d => cases hname
  | case2 name d => cases h
  | case3 name inOid params d hparse =>
    rw [fillData, hparse] at h
    cases h
  | case4 name' inOid' params d oid hparse ih =>
    rw [fillData, hparse] at h
    cases k with
    | zero =>
      obtain ⟨hoids, hbuffer, -⟩ := fillData_extends h
      cases hname
      cases hoid
      refine ⟨oid, d.buffer, hparse, hbuffer, ?_, fun _ => rfl⟩
      have hat : (d.oids ++ [asChar (d.buffer.length + name.length + 1)])[d.oids.length + 0]? =
          some (asChar (d.buffer.length + name.length + 1)) := by simp
      obtain ⟨rest, hrest⟩ := hoids
      rw [← hrest, List.getElem?_append_left (by simp [addPair])]
      exact hat
    | succ k =>
      obtain ⟨oid', start, hparse', hbuffer, hat, -⟩ := ih h (k := k) hname hoid
      refine ⟨oid', start, hparse', hbuffer, ?_, fun hzero => absurd hzero (Nat.succ_ne_zero k)⟩
      rw [addPair, List.length_append, List.length_singleton] at hat
      rw [← hat]
      congr 1
      omega

lemma asChar_of_lt {n : ℕ} (h : n < 128) : asChar n = n := Int.bmod_eq_of_le (by omega) (by omega)

lemma asChar_of_ge {n : ℕ} (h : 128 ≤ n) : asChar n < 0 ∨ ∃ m : ℕ, asChar n = m ∧ m + 256 ≤ n := by
  have hlt : asChar n < (256 + 1) / 2 := Int.bmod_lt (by omega)
  by_cases hneg : asChar n < 0
  · exact .inl hneg
  · obtain ⟨m, hm⟩ := Int.eq_ofNat_of_zero_le (not_lt.mp hneg)
    have hmod : asChar n % 256 = n % 256 := Int.bmod_emod
    exact .inr ⟨m, hm, by omega⟩

lemma textAt_string {start text tail : Text} (hbuffer : d.buffer = start ++ (text ++ nul :: tail)) (htext : nul ∉ text) :
    textAt d start.length = some text := by
  rw [textAt, if_neg (by omega), Int.toNat_natCast, hbuffer, List.drop_left]
  have hall : ∀ c ∈ text, decide (c ≠ nul) = true := fun c hc => decide_eq_true fun heq => htext (heq ▸ hc)
  rw [List.takeWhile_append_of_pos hall, List.takeWhile_cons_of_neg (by simp), List.append_nil]

lemma nul_not_mem {oid : Text} (h : ∀ c ∈ oid, isOidChar c) : nul ∉ oid := fun hmem => absurd (h nul hmem) (by decide)

lemma quote_not_mem {oid : Text} (h : ∀ c ∈ oid, isOidChar c) : '"' ∉ oid := fun hmem => absurd (h '"' hmem) (by decide)

lemma textAt_pair {start name oid : Text} (hbuffer : start ++ (name ++ nul :: (oid ++ [nul])) <+: d.buffer)
    (hchars : ∀ c ∈ oid, isOidChar c) (hfits : start.length + name.length + 1 < 128) :
    textAt d (asChar (start.length + name.length + 1)) = some oid := by
  obtain ⟨tail, htail⟩ := hbuffer
  have hlength : start.length + name.length + 1 = (start ++ (name ++ [nul])).length := by
    simp only [List.length_append, List.length_singleton]
    omega
  rw [asChar_of_lt hfits, hlength]
  have hsplit : d.buffer = start ++ (name ++ [nul]) ++ (oid ++ nul :: tail) := by
    rw [← htail]
    simp only [List.append_assoc, List.cons_append, List.nil_append]
  exact textAt_string hsplit (nul_not_mem hchars)

lemma firstText_spec (h : initDiscoveryItem snmpParseOid (some params) = some (.ok d)) :
    ∃ name inOid oid, params[0]? = some name ∧ params[1]? = some inOid ∧ parseOid snmpParseOid inOid = some oid ∧
      (name.length ≤ 126 → d.oids[0]?.bind (textAt d) = some oid) ∧
      (126 < name.length → ∀ text, d.oids[0]?.bind (textAt d) = some text → '"' ∉ text ∧ ¬∀ c ∈ text, isOidChar c) := by
  obtain ⟨hlength, hmacros, hfill⟩ := initDiscoveryItem_ok h
  match params, hlength with
  | name :: inOid :: rest, _ =>
    obtain ⟨oid, start, hparse, hbuffer, hat, hstart⟩ := fillData_pair hfill (k := 0) rfl rfl
    obtain rfl : start = [] := hstart rfl
    have hat' : d.oids[0]? = some (asChar (([] : Text).length + name.length + 1)) := hat
    refine ⟨name, inOid, oid, rfl, rfl, hparse, fun hshort => ?_, fun hlong text htext => ?_⟩
    · rw [hat', Option.bind_some]
      exact textAt_pair hbuffer (parseOid_chars hparse) (by rw [List.length_nil]; omega)
    · rw [hat', Option.bind_some] at htext
      obtain ⟨hnul, hquote, hlast⟩ := discoveryMacro_chars (hmacros name (List.mem_cons_self))
      obtain hneg | ⟨m, hm, hle⟩ := asChar_of_ge (n := ([] : Text).length + name.length + 1) (by omega)
      · rw [textAt, if_pos hneg] at htext
        cases htext
      rw [List.length_nil] at hle
      obtain ⟨tail, htail⟩ := hbuffer
      have hsplit : d.buffer = name.take m ++ (name.drop m ++ nul :: (oid ++ [nul] ++ tail)) := by
        rw [← List.append_assoc, List.take_append_drop, ← htail]
        simp only [List.nil_append, List.append_assoc, List.cons_append]
      have hdrop : textAt d m = some (name.drop m) := by
        have hstring := textAt_string hsplit fun hmem => hnul (List.mem_of_mem_drop hmem)
        rwa [List.length_take, min_eq_left (by omega)] at hstring
      rw [hm, hdrop] at htext
      cases htext
      refine ⟨fun hmem => hquote (List.mem_of_mem_drop hmem), fun hchars => ?_⟩
      have hbrace : '\x7d' ∈ name.drop m := by
        refine List.mem_of_getLast? ?_
        rw [List.getLast?_drop, if_neg (by omega), hlast]
      exact absurd (hchars _ hbrace) (by decide)

end

section

variable {walk oid : Text} {start : ℕ}

def rowIndex (walked oid : Text) : Option Text :=
  if walked ++ ['.'] <+: oid then some (oid.drop (walked.length + 1))
  else if walked.head? ≠ some '.' ∧ '.' :: (walked ++ ['.']) <+: oid then some (oid.drop (walked.length + 2))
  else none

lemma prefix_of_prefix_append_dot (h : walk ++ ['.'] <+: oid) : walk <+: oid := (List.prefix_append _ _).trans h

lemma not_prefix_of_dot {rest : Text} (hhead : walk.head? ≠ some '.') (hne : walk ≠ []) (hoid : oid = '.' :: rest) :
    ¬walk <+: oid := by
  intro hprefix
  obtain ⟨c, tail, rfl⟩ := List.exists_cons_of_ne_nil hne
  rw [hoid, List.cons_prefix_cons] at hprefix
  exact hhead (congrArg some hprefix.1)

lemma indexStart_of_rowIndex {index : Text} (h : rowIndex walk oid = some index) :
    ∃ start, indexStart walk oid = some start ∧ start ≤ oid.length ∧ oid.drop start = index := by
  rw [rowIndex] at h
  by_cases hdirect : walk ++ ['.'] <+: oid
  · rw [if_pos hdirect] at h
    have hlength := hdirect.length_le
    rw [List.length_append, List.length_singleton] at hlength
    exact ⟨_, if_pos (prefix_of_prefix_append_dot hdirect), hlength, Option.some.inj h⟩
  · rw [if_neg hdirect] at h
    split_ifs at h with hdotted
    obtain ⟨hhead, rest, hoid⟩ := hdotted
    have hne : walk ≠ [] := by
      rintro rfl
      exact hdirect ⟨_, hoid⟩
    have htail : walk <+: oid.tail := by
      rw [← hoid]
      exact ⟨'.' :: rest, by simp⟩
    have hlength : walk.length + 2 ≤ oid.length := by
      rw [← hoid]
      simp only [List.length_append, List.length_cons, List.length_nil]
      omega
    have hstart : oid.head? = some '.' := by
      rw [← hoid]
      rfl
    refine ⟨walk.length + 2, ?_, hlength, Option.some.inj h⟩
    rw [indexStart, if_neg (not_prefix_of_dot hhead hne hoid.symm), if_neg (by simp [hhead, hstart]), if_pos htail]

lemma drop_inj {a b : ℕ} (ha : a ≤ oid.length) (hb : b ≤ oid.length) (h : oid.drop a = oid.drop b) : a = b := by
  have := congrArg List.length h
  rw [List.length_drop, List.length_drop] at this
  omega

lemma rowIndex_length {walked index : Text} (h : rowIndex walked oid = some index) :
    (walked ++ ['.'] <+: oid ∧ walked.length + 1 ≤ oid.length ∧ index = oid.drop (walked.length + 1)) ∨
    (walked.head? ≠ some '.' ∧ '.' :: (walked ++ ['.']) <+: oid ∧ walked.length + 2 ≤ oid.length ∧
      index = oid.drop (walked.length + 2)) := by
  rw [rowIndex] at h
  split_ifs at h with hdirect hdotted
  · have hlength := hdirect.length_le
    rw [List.length_append, List.length_singleton] at hlength
    exact .inl ⟨hdirect, hlength, (Option.some.inj h).symm⟩
  · have hlength := hdotted.2.length_le
    rw [List.length_cons, List.length_append, List.length_singleton] at hlength
    exact .inr ⟨hdotted.1, hdotted.2, hlength, (Option.some.inj h).symm⟩

lemma rowIndex_of_indexStart {walked : Text} (hstart : indexStart walk oid = some start) (hlength : start ≤ oid.length)
    (h : rowIndex walked oid = some (oid.drop start)) : rowIndex walk oid = some (oid.drop start) := by
  have hparts := rowIndex_length h
  rw [indexStart] at hstart
  by_cases hprefix : walk <+: oid
  · rw [if_pos hprefix] at hstart
    cases hstart
    obtain ⟨hdirect, hle, hdrop⟩ | ⟨hhead, hdotted, hle, hdrop⟩ := hparts
    · have hsame := drop_inj hlength hle hdrop
      have heq : walk = walked :=
        List.prefix_of_prefix_length_le hprefix (prefix_of_prefix_append_dot hdirect) (by omega) |>.eq_of_length (by omega)
      subst heq
      exact h
    · have hsame := drop_inj hlength hle hdrop
      have heq : walk = '.' :: walked := by
        have hwalked : '.' :: walked <+: oid := prefix_of_prefix_append_dot hdotted
        refine (List.prefix_of_prefix_length_le hprefix hwalked ?_).eq_of_length ?_
        · rw [List.length_cons]
          omega
        · rw [List.length_cons]
          omega
      rw [rowIndex, if_pos (heq ▸ hdotted)]
  · rw [if_neg hprefix] at hstart
    split_ifs at hstart with hskip htail
    cases hstart
    push Not at hskip
    obtain ⟨hhead, hoid⟩ := hskip
    obtain ⟨rest, rfl⟩ : ∃ rest, oid = '.' :: rest := by
      cases oid with
      | nil => cases hoid
      | cons c rest => exact ⟨rest, by rw [Option.some.inj hoid]⟩
    rw [List.tail_cons] at htail
    have hdotwalk : '.' :: walk <+: '.' :: rest := List.cons_prefix_cons.mpr ⟨rfl, htail⟩
    obtain ⟨hdirect, hle, hdrop⟩ | ⟨hhead', hdotted, hle, hdrop⟩ := hparts
    · have hsame := drop_inj hlength hle hdrop
      have heq : '.' :: walk = walked := by
        refine (List.prefix_of_prefix_length_le hdotwalk (prefix_of_prefix_append_dot hdirect) ?_).eq_of_length ?_
        · rw [List.length_cons]
          omega
        · rw [List.length_cons]
          omega
      rw [← heq] at hdirect
      rw [rowIndex, if_neg fun h => hprefix (prefix_of_prefix_append_dot h), if_pos ⟨hhead, hdirect⟩]
    · have hsame := drop_inj hlength hle hdrop
      have heq : '.' :: walk = '.' :: walked := by
        have hwalked : '.' :: walked <+: '.' :: rest := prefix_of_prefix_append_dot hdotted
        refine (List.prefix_of_prefix_length_le hdotwalk hwalked ?_).eq_of_length ?_
        · rw [List.length_cons, List.length_cons]
          omega
        · rw [List.length_cons, List.length_cons]
          omega
      obtain rfl : walk = walked := (List.cons.inj heq).2
      exact h

end

section

variable (snmpParseOid : Text → Option (List ℕ)) (params : List Text) (item : Item) (d : DData)

def oidAt (k : ℕ) : Option Text := params[2 * k + 1]?.bind (fullOid snmpParseOid)

def indexAt (k : ℕ) (oid : Text) : Option Text := (oidAt snmpParseOid params k).bind fun walked => rowIndex walked oid

def owedStores (k : ℕ) (v : Value) : List (ℤ × Text × Text) :=
  (v.oid.bind fun oid => v.value.bind fun value =>
    (indexAt snmpParseOid params k oid).map fun index => ((k : ℤ), index, value)).toList

def StoredRight (s : State) (v : Value) : Prop :=
  ∃ s', processValue d s v = some s' ∧ s'.stored = s.stored ++ owedStores snmpParseOid params (s.asked - 1) v

def AskedRight (k : ℕ) (s s' : State) : Prop :=
  s'.sent = s.sent ∨ ∃ oid, oidAt snmpParseOid params k = some oid ∧
    s'.sent = s.sent ++ [requestText item (s'.address.getD []) oid]

def Right (s : State) : Event → Prop
  | .start addr written =>
    ∃ s', step item d s (.start addr written) = some s' ∧ AskedRight snmpParseOid params item 0 s s'
  | .answer response written =>
    (s.waiting → response.code = 200 → AllMeet (processValue d) (StoredRight snmpParseOid params d)
      { s with waiting := false } (response.values.getD [])) ∧
    ∃ s', step item d s (.answer response written) = some s' ∧ AskedRight snmpParseOid params item s.asked s s'

def MeetsAsk (written : Bool) (ip : Text) (k : ℕ) : Prop :=
  if written then
    ∃ name inOid oid, params[0]? = some name ∧ params[1]? = some inOid ∧ name.length ≤ 126 ∧
      parseOid snmpParseOid inOid = some oid ∧ oidAt snmpParseOid params k = some oid ∧
        (requestText item ip oid).length < maxStringLen
  else ∃ text, d.oids[0]?.bind (textAt d) = some text

def Fits (oid value : Text) : Prop := oid.length < maxOidLen * 4 ∧ value.length < maxOidLen * 4

instance (oid value : Text) : Decidable (Fits oid value) := inferInstanceAs (Decidable (_ ∧ _))

def MeetsStore (s : State) (v : Value) : Prop :=
  ∀ oid value, v.oid = some oid → v.value = some value →
    (∀ index, indexAt snmpParseOid params (s.asked - 1) oid = some index →
      Fits oid value ∧ s.currentOid = (s.asked - 1 : ℕ) ∧
        ∃ walk, walkOid d s = some walk ∧ rowIndex walk oid = some index) ∧
    (indexAt snmpParseOid params (s.asked - 1) oid = none → Fits oid value →
      ∃ walk, walkOid d s = some walk ∧ indexStart walk oid = none)

def Meets (s : State) : Event → Prop
  | .start addr written => s.queued → s.currentOid + 1 < d.count →
    MeetsAsk snmpParseOid params item d written (if s.currentOid = -1 then addr else s.address.getD []) 0
  | .answer response written => s.waiting → response.code = 200 →
    AllMeet (processValue d) (MeetsStore snmpParseOid params d) { s with waiting := false } (response.values.getD []) ∧
    (s.currentOid + 1 < d.count → MeetsAsk snmpParseOid params item d written (s.address.getD []) s.asked)

variable {snmpParseOid : Text → Option (List ℕ)} {params : List Text} {item : Item} {d : DData} {s s' : State}
  {written : Bool}

lemma take_quoted_iff {n : ℕ} {text oid tail : Text} (htext : '"' ∉ text) (hoid : '"' ∉ oid) :
    (text ++ '"' :: tail).take n = oid ++ '"' :: tail ↔ text = oid ∧ (oid ++ '"' :: tail).length ≤ n := by
  constructor
  · intro h
    induction text generalizing oid n with
    | nil =>
      cases oid with
      | nil =>
        refine ⟨rfl, ?_⟩
        have hlength := congrArg List.length h
        rw [List.length_take] at hlength
        exact min_eq_right_iff.mp hlength
      | cons c oid =>
        cases n with
        | zero => cases h
        | succ n =>
          have hhead : '"' = c := (List.cons.inj h).1
          exact absurd (hhead ▸ List.mem_cons_self) hoid
    | cons c text ih =>
      cases n with
      | zero =>
        have hlength := congrArg List.length h
        simp only [List.take_zero, List.length_nil, List.length_append, List.length_cons] at hlength
        omega
      | succ n =>
        cases oid with
        | nil =>
          have hhead : c = '"' := (List.cons.inj h).1
          exact absurd (hhead ▸ List.mem_cons_self) htext
        | cons c' oid =>
          obtain ⟨hhead, hrest⟩ := List.cons.inj h
          obtain ⟨heq, hle⟩ :=
            ih (fun h => htext (List.mem_cons_of_mem _ h)) (fun h => hoid (List.mem_cons_of_mem _ h)) hrest
          exact ⟨by rw [heq, hhead], Nat.succ_le_succ hle⟩
  · rintro ⟨rfl, hle⟩
    exact List.take_of_length_le hle

lemma take_request_iff {ip text oid : Text} (htext : '"' ∉ text) (hoid : '"' ∉ oid) :
    (requestText item ip text).take (maxStringLen - 1) = requestText item ip oid ↔
      text = oid ∧ (requestText item ip oid).length < maxStringLen := by
  have htail : requestTail item = '"' :: (requestTail item).tail := rfl
  rw [requestText, requestText, htail]
  generalize (requestTail item).tail = tail
  generalize requestHead item ip = head
  by_cases hlong : maxStringLen - 1 < head.length
  · constructor
    · intro h
      have hlength := congrArg List.length h
      simp only [List.length_take, List.length_append, List.length_cons] at hlength
      omega
    · rintro ⟨-, hlt⟩
      rw [List.length_append] at hlt
      omega
  · rw [List.take_append, List.take_of_length_le (by omega), List.append_cancel_left_eq, take_quoted_iff htext hoid]
    simp only [List.length_append]
    have hpos : maxStringLen = 2048 := rfl
    constructor
    · rintro ⟨heq, hle⟩
      exact ⟨heq, by omega⟩
    · rintro ⟨heq, hlt⟩
      exact ⟨heq, by omega⟩

lemma owedStores_of_fields {k : ℕ} {v : Value} {oid value : Text} (hoid : v.oid = some oid)
    (hvalue : v.value = some value) :
    owedStores snmpParseOid params k v =
      ((indexAt snmpParseOid params k oid).map fun index => ((k : ℤ), index, value)).toList := by
  rw [owedStores, hoid, hvalue]
  rfl

lemma valueByName_of_fits {field : Text} (h : field.length < maxOidLen * 4) : valueByName (some field) = some field :=
  Option.filter_eq_some_iff.mpr ⟨rfl, decide_eq_true h⟩

lemma valueByName_of_long {field : Text} (h : ¬field.length < maxOidLen * 4) : valueByName (some field) = none :=
  Option.filter_eq_none_iff.mpr (by simpa using h)

lemma storedRight_of_skip {v : Value} {oid value : Text} (hoid : v.oid = some oid) (hvalue : v.value = some value)
    (hskip : processValue d s v = some s) :
    StoredRight snmpParseOid params d s v ↔ indexAt snmpParseOid params (s.asked - 1) oid = none := by
  rw [StoredRight, hskip, owedStores_of_fields hoid hvalue]
  cases indexAt snmpParseOid params (s.asked - 1) oid with
  | none => simp
  | some index => simp

lemma processValue_cases (d : DData) (s : State) {v : Value} {oid value : Text} (hoid : v.oid = some oid)
    (hvalue : v.value = some value) :
    ¬Fits oid value ∧ processValue d s v = some s ∨
    Fits oid value ∧ walkOid d s = none ∧ processValue d s v = none ∨
    Fits oid value ∧ ∃ walk, walkOid d s = some walk ∧
      (indexStart walk oid = none ∧ processValue d s v = some s ∨
        ∃ start, indexStart walk oid = some start ∧
          (start ≤ oid.length ∧ processValue d s v = some (saveResultValue d (oid.drop start) value s) ∨
            oid.length < start ∧ processValue d s v = none)) := by
  rw [processValue, hoid, hvalue]
  by_cases hfits : Fits oid value
  · right
    rw [valueByName_of_fits hfits.1, valueByName_of_fits hfits.2]
    dsimp only
    cases hwalk : walkOid d s with
    | none => exact .inl ⟨hfits, rfl, rfl⟩
    | some walk =>
      refine .inr ⟨hfits, walk, rfl, ?_⟩
      rw [Option.bind_some]
      cases hstart : indexStart walk oid with
      | none => exact .inl ⟨rfl, rfl⟩
      | some start =>
        refine .inr ⟨start, rfl, ?_⟩
        dsimp only
        by_cases hlength : start ≤ oid.length
        · exact .inl ⟨hlength, if_pos hlength⟩
        · exact .inr ⟨not_le.mp hlength, if_neg hlength⟩
  · refine .inl ⟨hfits, ?_⟩
    by_cases hshort : oid.length < maxOidLen * 4
    · rw [valueByName_of_long fun hlt => hfits ⟨hshort, hlt⟩]
      cases valueByName (some oid) <;> rfl
    · rw [valueByName_of_long hshort]

lemma not_storedRight {v : Value} (h : processValue d s v = none) : ¬StoredRight snmpParseOid params d s v := by
  rintro ⟨s', hs', -⟩
  rw [h] at hs'
  cases hs'

lemma meetsStore_of_fields {v : Value} {oid value : Text} (hoid : v.oid = some oid) (hvalue : v.value = some value) :
    MeetsStore snmpParseOid params d s v ↔
      (∀ index, indexAt snmpParseOid params (s.asked - 1) oid = some index →
        Fits oid value ∧ s.currentOid = (s.asked - 1 : ℕ) ∧
          ∃ walk, walkOid d s = some walk ∧ rowIndex walk oid = some index) ∧
      (indexAt snmpParseOid params (s.asked - 1) oid = none → Fits oid value →
        ∃ walk, walkOid d s = some walk ∧ indexStart walk oid = none) := by
  refine ⟨fun h => h oid value hoid hvalue, fun h oid' value' hoid' hvalue' => ?_⟩
  obtain rfl : oid = oid' := Option.some.inj (hoid.symm.trans hoid')
  obtain rfl : value = value' := Option.some.inj (hvalue.symm.trans hvalue')
  exact h

lemma meetsStore_reads {v : Value} {oid value walk index : Text} (hoid : v.oid = some oid) (hvalue : v.value = some value)
    (hwalk : walkOid d s = some walk) (hindex : indexAt snmpParseOid params (s.asked - 1) oid = some index)
    (h : MeetsStore snmpParseOid params d s v) :
    s.currentOid = (s.asked - 1 : ℕ) ∧
      ∃ start, indexStart walk oid = some start ∧ start ≤ oid.length ∧ oid.drop start = index := by
  obtain ⟨-, hnum, walk', hwalk', hrow⟩ := ((meetsStore_of_fields hoid hvalue).mp h).1 index hindex
  obtain rfl : walk = walk' := Option.some.inj (hwalk.symm.trans hwalk')
  exact ⟨hnum, indexStart_of_rowIndex hrow⟩

lemma storedRight_iff_of_fields {v : Value} {oid value : Text} (hoid : v.oid = some oid) (hvalue : v.value = some value) :
    StoredRight snmpParseOid params d s v ↔ MeetsStore snmpParseOid params d s v := by
  have hmeets : MeetsStore snmpParseOid params d s v ↔ _ := meetsStore_of_fields hoid hvalue
  obtain ⟨hlong, hskip⟩ | ⟨hfits, hwalk, hfails⟩ | ⟨hfits, walk, hwalk, ⟨hstart, hskip⟩ | ⟨start, hstart, hends⟩⟩ :=
    processValue_cases d s hoid hvalue
  · rw [storedRight_of_skip hoid hvalue hskip, hmeets]
    constructor
    · intro hindex
      exact ⟨fun index h => absurd (hindex.symm.trans h) (by simp), fun _ h => absurd h hlong⟩
    · rintro ⟨hsome, -⟩
      by_contra hindex
      obtain ⟨index, hindex⟩ := Option.ne_none_iff_exists'.mp hindex
      exact hlong (hsome index hindex).1
  · refine iff_of_false (not_storedRight hfails) fun h => ?_
    obtain ⟨hsome, hnone⟩ := hmeets.mp h
    cases hindex : indexAt snmpParseOid params (s.asked - 1) oid with
    | none =>
      obtain ⟨walk, h, -⟩ := hnone hindex hfits
      exact absurd (hwalk.symm.trans h) (by simp)
    | some index =>
      obtain ⟨-, -, walk, h, -⟩ := hsome index hindex
      exact absurd (hwalk.symm.trans h) (by simp)
  · rw [storedRight_of_skip hoid hvalue hskip]
    constructor
    · intro hindex
      exact hmeets.mpr ⟨fun index h => absurd (hindex.symm.trans h) (by simp), fun _ _ => ⟨walk, hwalk, hstart⟩⟩
    · intro h
      by_contra hindex
      obtain ⟨index, hindex⟩ := Option.ne_none_iff_exists'.mp hindex
      obtain ⟨-, start, hread, -⟩ := meetsStore_reads hoid hvalue hwalk hindex h
      exact absurd (hstart.symm.trans hread) (by simp)
  · have hnone : MeetsStore snmpParseOid params d s v → indexAt snmpParseOid params (s.asked - 1) oid ≠ none := by
      intro h hindex
      obtain ⟨walk', hwalk', hread⟩ := (hmeets.mp h).2 hindex hfits
      obtain rfl : walk = walk' := Option.some.inj (hwalk.symm.trans hwalk')
      exact absurd (hstart.symm.trans hread) (by simp)
    obtain ⟨hlength, hsave⟩ | ⟨hlength, hfails⟩ := hends
    · rw [StoredRight, hsave, owedStores_of_fields hoid hvalue]
      simp only [Option.some.injEq, exists_eq_left', saveResultValue, List.append_cancel_left_eq]
      constructor
      · intro howed
        cases hindex : indexAt snmpParseOid params (s.asked - 1) oid with
        | none =>
          rw [hindex] at howed
          cases howed
        | some index =>
          rw [hindex] at howed
          simp only [Option.map_some, Option.toList_some, List.cons.injEq, Prod.mk.injEq, and_true] at howed
          obtain ⟨hnum, rfl⟩ := howed
          obtain ⟨walked, -, hrow⟩ := Option.bind_eq_some_iff.mp hindex
          refine hmeets.mpr ⟨fun index' h => ?_, fun h => absurd (hindex.symm.trans h) (by simp)⟩
          obtain rfl := Option.some.inj (hindex.symm.trans h)
          exact ⟨hfits, hnum, walk, hwalk, rowIndex_of_indexStart hstart hlength hrow⟩
      · intro h
        obtain ⟨index, hindex⟩ := Option.ne_none_iff_exists'.mp (hnone h)
        obtain ⟨hnum, start', hread, -, hdrop⟩ := meetsStore_reads hoid hvalue hwalk hindex h
        obtain rfl : start = start' := Option.some.inj (hstart.symm.trans hread)
        rw [hindex, hnum, hdrop]
        rfl
    · refine iff_of_false (not_storedRight hfails) fun h => ?_
      obtain ⟨index, hindex⟩ := Option.ne_none_iff_exists'.mp (hnone h)
      obtain ⟨-, start', hread, hle, -⟩ := meetsStore_reads hoid hvalue hwalk hindex h
      obtain rfl : start = start' := Option.some.inj (hstart.symm.trans hread)
      omega

lemma storedRight_iff (s : State) (v : Value) :
    StoredRight snmpParseOid params d s v ↔ MeetsStore snmpParseOid params d s v := by
  cases hoid : v.oid with
  | none =>
    refine iff_of_true ⟨s, by rw [processValue, hoid]; rfl, by rw [owedStores, hoid]; simp⟩ ?_
    intro oid value hsome
    rw [hoid] at hsome
    cases hsome
  | some oid =>
    cases hvalue : v.value with
    | none =>
      refine iff_of_true ⟨s, ?_, by rw [owedStores, hoid, hvalue]; simp⟩ ?_
      · rw [processValue, hvalue]
        cases valueByName v.oid <;> rfl
      · intro oid value _ hsome
        rw [hvalue] at hsome
        cases hsome
    | some value => exact storedRight_iff_of_fields hoid hvalue

structure SameWalk (s s' : State) : Prop where
  currentOid : s'.currentOid = s.currentOid
  address : s'.address = s.address
  asked : s'.asked = s.asked
  sent : s'.sent = s.sent
  queued : s'.queued = s.queued
  waiting : s'.waiting = s.waiting

lemma processValue_same {v : Value} (h : processValue d s v = some s') : SameWalk s s' := by
  rw [processValue] at h
  split at h
  · obtain ⟨walk, -, hs'⟩ := Option.bind_eq_some_iff.mp h
    split at hs'
    · cases hs'
      exact ⟨rfl, rfl, rfl, rfl, rfl, rfl⟩
    · split_ifs at hs'
      cases hs'
      exact ⟨rfl, rfl, rfl, rfl, rfl, rfl⟩
  · cases h
    exact ⟨rfl, rfl, rfl, rfl, rfl, rfl⟩

lemma processValues_same {values : List Value} (h : values.foldlM (processValue d) s = some s') : SameWalk s s' := by
  have hstart : SameWalk s s := ⟨rfl, rfl, rfl, rfl, rfl, rfl⟩
  refine @foldlM_rule _ _ _ (fun _ => SameWalk s) ?_ values [] _ _ hstart h
  intro _ mid v next hmid hnext
  have hsame := processValue_same hnext
  exact ⟨hsame.currentOid.trans hmid.currentOid, hsame.address.trans hmid.address, hsame.asked.trans hmid.asked,
    hsame.sent.trans hmid.sent, hsame.queued.trans hmid.queued, hsame.waiting.trans hmid.waiting⟩

def ask (item : Item) (d : DData) (written : Bool) (s : State) : Option State :=
  (d.oids[0]?.bind (textAt d)).map fun oid => sendRequest written (requestText item (s.address.getD []) oid) s

lemma startNextWalk_asks (item : Item) {addr : Option Text} (hstart : ¬(s.currentOid = -1 ∧ addr = none))
    (hmore : s.currentOid + 1 < d.count) :
    startNextWalk item d written addr s = ask item d written
      { s with address := if s.currentOid = -1 then addr else s.address, currentOid := s.currentOid + 1 } := by
  rw [startNextWalk, if_neg hstart]
  exact if_neg (not_le.mpr hmore)

lemma startNextWalk_stops (item : Item) {addr : Option Text}
    (h : ¬(s.currentOid = -1 ∧ addr = none) → (d.count : ℤ) ≤ s.currentOid + 1) :
    ∃ s', startNextWalk item d written addr s = some s' ∧ s'.sent = s.sent := by
  rw [startNextWalk]
  by_cases hidle : s.currentOid = -1 ∧ addr = none
  · exact ⟨s, if_pos hidle, rfl⟩
  · rw [if_neg hidle]
    exact ⟨_, if_pos (h hidle), rfl⟩

lemma ask_right_iff (hinit : initDiscoveryItem snmpParseOid (some params) = some (.ok d)) (before : State)
    (hsent : s.sent = before.sent) (item : Item) (written : Bool) (k : ℕ) :
    (∃ s', ask item d written s = some s' ∧ AskedRight snmpParseOid params item k before s') ↔
      MeetsAsk snmpParseOid params item d written (s.address.getD []) k := by
  rw [MeetsAsk]
  cases written with
  | false =>
    constructor
    · rintro ⟨s', hs', -⟩
      obtain ⟨text, htext, -⟩ := Option.map_eq_some_iff.mp hs'
      exact ⟨text, htext⟩
    · rintro ⟨text, htext⟩
      exact ⟨_, Option.map_eq_some_iff.mpr ⟨text, htext, rfl⟩, .inl hsent⟩
  | true =>
  rw [if_pos rfl]
  obtain ⟨name, inOid, oid, hname, hinOid, hparse, hshort, hlong⟩ := firstText_spec hinit
  have hsend : ∀ text, AskedRight snmpParseOid params item k before
      (sendRequest true (requestText item (s.address.getD []) text) s) ↔
      ∃ walked, oidAt snmpParseOid params k = some walked ∧
        (requestText item (s.address.getD []) text).take (maxStringLen - 1) =
          requestText item (s.address.getD []) walked := by
    intro text
    simp [AskedRight, sendRequest, hsent]
  have hwalked : ∀ walked, oidAt snmpParseOid params k = some walked → ∀ c ∈ walked, isOidChar c := by
    intro walked h
    obtain ⟨_, -, hfull⟩ := Option.bind_eq_some_iff.mp h
    exact fullOid_chars hfull
  by_cases hfits : name.length ≤ 126
  · rw [ask, hshort hfits, Option.map_some]
    simp only [Option.some.injEq, exists_eq_left', hsend]
    constructor
    · rintro ⟨walked, hat, htake⟩
      obtain ⟨rfl, hlength⟩ :=
        (take_request_iff (quote_not_mem (parseOid_chars hparse)) (quote_not_mem (hwalked walked hat))).mp htake
      exact ⟨name, inOid, oid, hname, hinOid, hfits, hparse, hat, hlength⟩
    · rintro ⟨name', inOid', oid', -, hinOid', -, hparse', hat, hlength⟩
      obtain rfl : inOid = inOid' := Option.some.inj (hinOid.symm.trans hinOid')
      obtain rfl : oid = oid' := Option.some.inj (hparse.symm.trans hparse')
      have hquote := quote_not_mem (parseOid_chars hparse)
      exact ⟨oid, hat, (take_request_iff hquote hquote).mpr ⟨rfl, hlength⟩⟩
  · refine iff_of_false ?_ ?_
    · rintro ⟨s', hs', hright⟩
      obtain ⟨text, htext, rfl⟩ := Option.map_eq_some_iff.mp hs'
      obtain ⟨hquote, hnot⟩ := hlong (not_le.mp hfits) text htext
      obtain ⟨walked, hat, htake⟩ := (hsend text).mp hright
      obtain ⟨rfl, -⟩ := (take_request_iff hquote (quote_not_mem (hwalked walked hat))).mp htake
      exact hnot (hwalked text hat)
    · rintro ⟨name', _, _, hname', -, hle, -⟩
      obtain rfl : name = name' := Option.some.inj (hname.symm.trans hname')
      exact hfits hle

lemma right_start_iff (hinit : initDiscoveryItem snmpParseOid (some params) = some (.ok d)) (s : State) (addr : Text)
    (written : Bool) : Right snmpParseOid params item d s (.start addr written) ↔
      Meets snmpParseOid params item d s (.start addr written) := by
  rw [Right, Meets]
  by_cases hqueued : s.queued
  · rw [step, if_pos hqueued]
    let started : State := { s with queued := false, asked := 0 }
    by_cases hmore : s.currentOid + 1 < d.count
    · have hasks : startNextWalk item d written (some addr) started = ask item d written _ :=
        startNextWalk_asks item (by simp) hmore
      rw [hasks]
      refine (ask_right_iff hinit s ?_ item written 0).trans ?_
      · rfl
      simp only [hqueued, hmore, true_imp_iff, started]
      split_ifs <;> rfl
    · obtain ⟨s', hs', hsent⟩ : ∃ s', startNextWalk item d written (some addr) started = some s' ∧ s'.sent = started.sent :=
        startNextWalk_stops item fun _ => not_lt.mp hmore
      exact iff_of_true ⟨s', hs', .inl hsent⟩ fun _ h => absurd h hmore
  · rw [step, if_neg hqueued]
    exact iff_of_true ⟨s, rfl, .inl rfl⟩ fun h => absurd h hqueued

lemma processResult_last {response : Response} (hcode : response.code = 200) {mid : State}
    (hmid : (response.values.getD []).foldlM (processValue d) s = some mid) (hlast : (d.count : ℤ) ≤ s.currentOid + 1) :
    ∃ s', processResult item d written response s = some s' ∧ s'.sent = s.sent := by
  have hsame := processValues_same hmid
  rw [processResult, if_pos hcode]
  have hstops : ∀ t : State, t.sent = s.sent → (needMoreData d t → t.currentOid = -1) →
      ∃ s', (if needMoreData d t then startNextWalk item d written none t
        else some (returnItemToQueue (cleanDiscoveryRequest t))) = some s' ∧ s'.sent = s.sent := by
    intro t hsent hidle
    by_cases hmore : needMoreData d t
    · rw [if_pos hmore]
      obtain ⟨s', hs', hsent'⟩ : ∃ s', startNextWalk item d written none t = some s' ∧ s'.sent = t.sent :=
        startNextWalk_stops item fun hnot => absurd ⟨hidle hmore, rfl⟩ hnot
      exact ⟨s', hs', hsent'.trans hsent⟩
    · exact ⟨_, if_neg hmore, hsent⟩
  have hnomore : ∀ t : State, t.currentOid = s.currentOid → ¬needMoreData d t := by
    intro t ht
    rw [needMoreData, ht]
    omega
  cases hvalues : response.values with
  | none => exact hstops s rfl fun h => absurd h (hnomore s rfl)
  | some values =>
    rw [hvalues, Option.getD_some] at hmid
    rw [processDiscoveryResponse, hmid, Option.map_some, Option.bind_some]
    by_cases hcount : mid.currentOid + 1 = (d.count : ℤ)
    · rw [if_pos hcount]
      exact hstops _ hsame.sent fun _ => rfl
    · rw [if_neg hcount]
      exact hstops mid hsame.sent fun h => absurd h (hnomore mid hsame.currentOid)

lemma processResult_asks {response : Response} (hcode : response.code = 200) {mid : State}
    (hmid : (response.values.getD []).foldlM (processValue d) s = some mid) (hidle : s.currentOid ≠ -1)
    (hmore : s.currentOid + 1 < d.count) :
    ∃ asking, processResult item d written response s = ask item d written asking ∧ asking.address = s.address ∧
      asking.sent = s.sent := by
  have hsame := processValues_same hmid
  have hasks : ∀ t : State, SameWalk s t → ∃ asking,
      (if needMoreData d t then startNextWalk item d written none t
        else some (returnItemToQueue (cleanDiscoveryRequest t))) = ask item d written asking ∧ asking.address = s.address ∧ asking.sent = s.sent := by
    intro t ht
    have hneed : needMoreData d t := by
      rw [needMoreData, ht.currentOid]
      omega
    have hidle' : t.currentOid ≠ -1 := by rwa [ht.currentOid]
    rw [if_pos hneed]
    refine ⟨_, startNextWalk_asks item (fun h => hidle' h.1) (by rwa [ht.currentOid]), ?_, ht.sent⟩
    rw [if_neg hidle']
    exact ht.address
  rw [processResult, if_pos hcode]
  cases hvalues : response.values with
  | none => exact hasks s ⟨rfl, rfl, rfl, rfl, rfl, rfl⟩
  | some values =>
    rw [hvalues, Option.getD_some] at hmid
    have hcount : ¬mid.currentOid + 1 = (d.count : ℤ) := by
      rw [hsame.currentOid]
      exact hmore.ne
    rw [processDiscoveryResponse, hmid, Option.map_some, Option.bind_some, if_neg hcount]
    exact hasks mid hsame

structure Inv (s : State) : Prop where
  least : -1 ≤ s.currentOid
  walking : s.waiting → 0 ≤ s.currentOid
  idle : s.queued → s.waiting = false

lemma storesRight_iff (values : List Value) (s : State) :
    AllMeet (processValue d) (StoredRight snmpParseOid params d) s values ↔
      AllMeet (processValue d) (MeetsStore snmpParseOid params d) s values :=
  allMeet_congr (fun _ => True) (fun s v _ => storedRight_iff s v) (fun _ _ _ _ _ => trivial) values trivial

lemma right_answer_iff (hinit : initDiscoveryItem snmpParseOid (some params) = some (.ok d)) (hs : Inv s)
    (response : Response) (written : Bool) : Right snmpParseOid params item d s (.answer response written) ↔
      Meets snmpParseOid params item d s (.answer response written) := by
  rw [Right, Meets]
  by_cases hwaiting : s.waiting
  · simp only [hwaiting, true_imp_iff, step, if_true]
    by_cases hcode : response.code = 200
    · simp only [hcode, true_imp_iff]
      rw [storesRight_iff]
      refine and_congr_right fun hmeets => ?_
      have hsome : ∀ (s : State) (v : Value), StoredRight snmpParseOid params d s v → (processValue d s v).isSome := by
        rintro s v ⟨s', hs', -⟩
        exact Option.isSome_iff_exists.mpr ⟨s', hs'⟩
      obtain ⟨mid, hmid⟩ := Option.isSome_iff_exists.mp
        (foldlM_isSome_of_allMeet hsome _ ((storesRight_iff _ _).mpr hmeets))
      by_cases hmore : s.currentOid + 1 < d.count
      · have hwalking := hs.walking hwaiting
        obtain ⟨asking, hasks, haddress, hsent⟩ : ∃ asking,
            processResult item d written response { s with waiting := false } = ask item d written asking ∧
              asking.address = s.address ∧ asking.sent = s.sent :=
          processResult_asks hcode hmid (by dsimp only; omega) hmore
        rw [hasks, ask_right_iff hinit s hsent item written, haddress]
        exact ⟨fun h _ => h, fun h => h hmore⟩
      · obtain ⟨s', hs', hsent⟩ : ∃ s', processResult item d written response { s with waiting := false } = some s' ∧
            s'.sent = s.sent := processResult_last hcode hmid (not_lt.mp hmore)
        exact iff_of_true ⟨s', hs', .inl hsent⟩ fun h => absurd h hmore
    · simp only [hcode, false_imp_iff, true_and]
      rw [processResult, if_neg hcode]
      refine iff_of_true ?_ trivial
      split_ifs
      · exact ⟨_, rfl, .inl rfl⟩
      · exact ⟨_, rfl, .inl rfl⟩
  · simp only [hwaiting, Bool.false_eq_true, false_imp_iff, true_and, step, if_false]
    exact iff_of_true ⟨s, rfl, .inl rfl⟩ trivial

lemma ask_inv (h : ask item d written s = some s') (hwalking : 0 ≤ s.currentOid) (hwaiting : s.waiting = false)
    (hqueued : s.queued = false) : Inv s' := by
  obtain ⟨text, -, rfl⟩ := Option.map_eq_some_iff.mp h
  have hleast : -1 ≤ s.currentOid := by omega
  cases written with
  | false => exact ⟨hleast, fun _ => hwalking, fun _ => hwaiting⟩
  | true => exact ⟨hleast, fun _ => hwalking, fun h => absurd (hqueued.symm.trans h) (by simp)⟩

lemma startNextWalk_inv {addr : Option Text} (h : startNextWalk item d written addr s = some s') (hleast : -1 ≤ s.currentOid)
    (hwaiting : s.waiting = false) (hqueued : s.queued = false) : Inv s' := by
  by_cases hidle : s.currentOid = -1 ∧ addr = none
  · rw [startNextWalk, if_pos hidle] at h
    cases h
    exact ⟨hleast, fun h => absurd (hwaiting.symm.trans h) (by simp), fun _ => hwaiting⟩
  · by_cases hmore : s.currentOid + 1 < d.count
    · rw [startNextWalk_asks item hidle hmore] at h
      exact ask_inv h (by dsimp only; omega) hwaiting hqueued
    · rw [startNextWalk, if_neg hidle] at h
      dsimp only at h
      rw [if_pos (not_lt.mp hmore)] at h
      cases h
      exact ⟨le_rfl, fun h => absurd (hwaiting.symm.trans h) (by simp), fun _ => hwaiting⟩

lemma processDiscoveryResponse_least {values : Option (List Value)} (h : processDiscoveryResponse d values s = some s')
    (hleast : -1 ≤ s.currentOid) : -1 ≤ s'.currentOid ∧ s'.queued = s.queued ∧ s'.waiting = s.waiting := by
  cases values with
  | none =>
    cases h
    exact ⟨hleast, rfl, rfl⟩
  | some values =>
    obtain ⟨mid, hmid, rfl⟩ := Option.map_eq_some_iff.mp h
    have hsame := processValues_same hmid
    split_ifs
    · exact ⟨le_rfl, hsame.queued, hsame.waiting⟩
    · exact ⟨by rwa [hsame.currentOid], hsame.queued, hsame.waiting⟩

lemma step_inv {event : Event} (hs : Inv s) (h : step item d s event = some s') : Inv s' := by
  cases event with
  | start addr written =>
    rw [step] at h
    split_ifs at h with hqueued
    · exact startNextWalk_inv h hs.least (hs.idle hqueued) rfl
    · cases h
      exact hs
  | answer response written =>
    rw [step] at h
    split_ifs at h with hwaiting
    · have hqueued : s.queued = false := by
        by_contra hqueued
        exact absurd (hwaiting.symm.trans (hs.idle (by simpa using hqueued))) (by simp)
      rw [processResult] at h
      split_ifs at h
      · obtain ⟨mid, hmid, hnext⟩ := Option.bind_eq_some_iff.mp h
        obtain ⟨hleast, hqueued', hwaiting'⟩ := processDiscoveryResponse_least hmid hs.least
        split_ifs at hnext
        · exact startNextWalk_inv hnext hleast hwaiting' (hqueued'.trans hqueued)
        · cases hnext
          exact ⟨le_rfl, fun h => absurd (hwaiting'.symm.trans h) (by simp), fun _ => hwaiting'⟩
      · cases h
        exact ⟨hs.least, fun h => absurd h (by simp [returnItemToQueue]), fun _ => rfl⟩
      · cases h
        exact ⟨hs.least, fun h => absurd h (by simp), fun _ => rfl⟩
    · cases h
      exact hs

theorem discovery_right_iff (snmpParseOid : Text → Option (List ℕ)) (params : List Text) (d : DData)
    (hinit : initDiscoveryItem snmpParseOid (some params) = some (.ok d)) (item : Item) (events : List Event) :
    AllMeet (step item d) (Right snmpParseOid params item d) init events ↔
      AllMeet (step item d) (Meets snmpParseOid params item d) init events := by
  have hfirst : Inv init := ⟨le_rfl, fun h => absurd h (by simp [init]), fun _ => rfl⟩
  refine allMeet_congr Inv ?_ (fun _ _ _ hs h => step_inv hs h) events hfirst
  intro s event hs
  cases event with
  | start addr written => exact right_start_iff hinit s addr written
  | answer response written => exact right_answer_iff hinit hs response written

theorem walkOid_of_short (hinit : initDiscoveryItem snmpParseOid (some params) = some (.ok d))
    (hshort : d.buffer.length ≤ 128) {k : ℕ} {name inOid : Text} (hname : params[2 * k]? = some name)
    (hinOid : params[2 * k + 1]? = some inOid)
    (hs : s.currentOid = k) : walkOid d s = parseOid snmpParseOid inOid := by
  obtain ⟨-, -, hfill⟩ := initDiscoveryItem_ok hinit
  obtain ⟨oid, start, hparse, hbuffer, hat, -⟩ := fillData_pair hfill hname hinOid
  have hlength := hbuffer.length_le
  simp only [List.length_append, List.length_cons, List.length_nil] at hlength
  rw [List.length_nil, Nat.zero_add] at hat
  rw [walkOid, hs, if_neg (by omega), Int.toNat_natCast, hat, hparse, Option.bind_some]
  exact textAt_pair hbuffer (parseOid_chars hparse) (by omega)

def noMib : Text → Option (List ℕ) := fun _ => none

def oneWalk : List Text := ["\x7b#IF\x7d".toList, "1.3.6.1".toList]

def oneWalkData : DData := ⟨[0], [6], 1, "\x7b#IF\x7d".toList ++ nul :: ("1.3.6.1".toList ++ [nul])⟩

lemma oneWalk_init : initDiscoveryItem noMib (some oneWalk) = some (.ok oneWalkData) := by
  decide +kernel

def oneWalkAnswered : List Event :=
  [.start "10.0.0.1".toList true, .answer ⟨200, [], some [⟨some ".1.3.6.1.5".toList, some "lo".toList⟩]⟩ true]

theorem oneWalk_right :
    AllMeet (step ⟨7, []⟩ oneWalkData) (Right noMib oneWalk ⟨7, []⟩ oneWalkData) init oneWalkAnswered := by
  refine (discovery_right_iff noMib oneWalk oneWalkData oneWalk_init ⟨7, []⟩ oneWalkAnswered).mpr ⟨?_, ?_⟩
  · intro _ _
    exact ⟨_, _, _, rfl, rfl, by decide +kernel, rfl, rfl, by decide +kernel⟩
  · intro s' hs'
    have hview : (step ⟨7, []⟩ oneWalkData init (.start "10.0.0.1".toList true)).map (fun s => (s.currentOid, s.asked)) =
        some (0, 1) := by decide +kernel
    rw [hs'] at hview
    obtain ⟨hcurrent, hasked⟩ := Prod.mk.inj (Option.some.inj hview)
    refine ⟨fun _ _ => ⟨⟨?_, fun _ _ => trivial⟩, fun hmore => ?_⟩, fun _ _ => trivial⟩
    · intro oid value hoid hvalue
      cases hoid
      cases hvalue
      have hindex : indexAt noMib oneWalk (s'.asked - 1) ".1.3.6.1.5".toList = some "5".toList := by
        rw [hasked]
        decide +kernel
      have hwalk : walkOid oneWalkData { s' with waiting := false } = some "1.3.6.1".toList :=
        (walkOid_of_short oneWalk_init (by decide +kernel) rfl rfl hcurrent).trans (by decide +kernel)
      refine ⟨fun index h => ?_, fun h => absurd (hindex.symm.trans h) (by simp)⟩
      obtain rfl := Option.some.inj (hindex.symm.trans h)
      refine ⟨by decide +kernel, ?_, _, hwalk, by decide +kernel⟩
      dsimp only
      rw [hcurrent, hasked]
      rfl
    · rw [hcurrent] at hmore
      exact absurd hmore (by decide)

def twoWalks : List Text := ["\x7b#IF\x7d".toList, "1.3.6.1".toList, "\x7b#TYPE\x7d".toList, "1.3.6.2".toList]

def twoWalksData : DData where
  macroNames := [0, 14]
  oids := [6, 22]
  count := 2
  buffer := "\x7b#IF\x7d".toList ++ nul :: ("1.3.6.1".toList ++ nul ::
    ("\x7b#TYPE\x7d".toList ++ nul :: ("1.3.6.2".toList ++ [nul])))

lemma twoWalks_init : initDiscoveryItem noMib (some twoWalks) = some (.ok twoWalksData) := by
  decide +kernel

theorem second_walk_asks_first_oid : ¬∀ (params : List Text) (d : DData),
    initDiscoveryItem noMib (some params) = some (.ok d) → ∀ (item : Item) (events : List Event),
      AllMeet (step item d) (Right noMib params item d) init events := by
  intro hall
  have hright := hall twoWalks twoWalksData twoWalks_init ⟨7, []⟩
    [.start "10.0.0.1".toList true, .answer ⟨200, [], some []⟩ true]
  obtain ⟨s', hs', -⟩ := hright.1
  have hview : (step ⟨7, []⟩ twoWalksData init (.start "10.0.0.1".toList true)).map
      (fun s => (s.currentOid, s.asked, s.waiting, s.queued)) = some (0, 1, true, false) := by decide +kernel
  rw [hs'] at hview
  obtain ⟨hcurrent, hasked, hwaiting, hqueued⟩ :
      s'.currentOid = 0 ∧ s'.asked = 1 ∧ s'.waiting = true ∧ s'.queued = false := by
    simpa using hview
  have hinv : Inv s' := ⟨by omega, fun _ => hcurrent.ge, fun h => absurd (hqueued.symm.trans h) (by simp)⟩
  obtain ⟨-, hasks⟩ := (right_answer_iff twoWalks_init hinv _ _).mp (hright.2 s' hs').1 hwaiting rfl
  obtain ⟨name, inOid, oid, -, hinOid, -, hparse, hat, -⟩ := hasks (by rw [hcurrent]; decide)
  cases hinOid
  rw [hasked] at hat
  have hdiffer : parseOid noMib "1.3.6.1".toList ≠ oidAt noMib twoWalks 1 := by decide +kernel
  exact hdiffer (hparse.trans hat.symm)

end

end Glaber.Poller.SnmpDiscovery
