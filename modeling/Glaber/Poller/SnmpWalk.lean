import Glaber.Lib.Runs
import Glaber.Macros.Name
import Glaber.Poller.Csnmp

/-! SNMP walks (`snmp_walk.c`, `snmp.c`). -/

namespace Glaber.Poller.SnmpWalk

open Glaber.Lib.Runs Glaber.Macros Glaber.Poller.Csnmp

abbrev Oid := List ℤ

/-- What the walk calls of Net-SNMP, and `snmp_set_result` with the text of its result. -/
structure NetSnmp where
  parseOid : Text → Option Oid
  -- the length of the printed OID, with string or with numeric indices
  printOid : Oid → Bool → Option ℕ
  chooseIndex : Oid → ℕ → ℕ → Option Text
  setResult : Var → Option (Option Text)

def snmpWalkMaxOids : ℕ := 100000
def snmpMaxRetries : ℕ := 2
def maxOidLen : ℕ := 128

def tpNoSuchInstance : ℤ := 0x81
def tpEndOfMibView : ℤ := 0x82

structure DObject where
  index : Text
  values : List (Option Text)

structure DData where
  rootOid : Oid
  rootOidStrLen : ℕ
  rootOidNumLen : ℕ
  lastOid : Oid
  oidsLooped : ℕ
  num : ℤ
  -- in the order of discovery
  objects : List DObject
  params : List Text

inductive Report where
  | error (text : Text)
  | result (objects : List (List (Text × Text)))

-- The session of the last request is open as long as its timer runs.
structure WalkItem where
  data : Option DData
  retries : ℕ
  pending : Bool
  sent : List Oid
  returned : ℕ
  reports : List Report

section

def macroTail : Text → Bool
  | [] => false
  | c :: rest =>
    isMacroChar c &&
      match rest with
      | '}' :: tail => tail.isEmpty
      | rest => macroTail rest

def isDiscoveryMacro : Text → Bool
  | '{' :: '#' :: rest => macroTail rest
  | _ => false

def macrosOf : List Text → List Text
  | name :: _ :: params => name :: macrosOf params
  | _ => []

def macroError (name : Text) : Option Text :=
  if ¬ isDiscoveryMacro name then some "Invalid SNMP OID: macro is invalid".toList
  else if name = "\x7b#SNMPINDEX\x7d".toList then
    some "Invalid SNMP OID: macro \"\x7b#SNMPINDEX\x7d\" is not allowed.".toList
  else none

def ddataInit (request : Option (List Text)) : Except Text DData :=
  match request with
  | none => .error "Invalid SNMP OID: cannot parse expression.".toList
  | some params =>
    if params.length = 0 ∨ params.length % 2 ≠ 0 then
      .error "Invalid SNMP OID: pairs of macro and OID are expected.".toList
    else
      match (macrosOf params).findSome? macroError with
      | some text => .error text
      | none =>
        if ¬ (macrosOf params).Nodup then .error "Invalid SNMP OID: unique macros are expected.".toList
        else .ok ⟨[], 0, 0, [], 0, -1, [], params⟩

end

section

variable (N : NetSnmp) (item : WalkItem)

def WalkItem.preprocessError (text : String) : WalkItem :=
  { item with reports := item.reports ++ [.error text.toList] }

def returnItemToQueue : WalkItem := { item with returned := item.returned + 1 }

def stopItemPoll : WalkItem := { returnItemToQueue item with data := none, pending := false }

def resultMembers (params : List Text) (obj : DObject) : List (Text × Text) :=
  ("\x7b#SNMPINDEX\x7d".toList, obj.index) ::
    ((macrosOf params).zip obj.values).filterMap fun (name, value) => value.map fun text => (name, text)

def submitResult (ddata : DData) (item : WalkItem) : WalkItem :=
  { item with reports := item.reports ++ [.result (ddata.objects.map (resultMembers ddata.params))] }

def sendPacket (oid : Oid) (item : WalkItem) : WalkItem := { item with pending := true, sent := item.sent ++ [oid] }

/-- A C function without a return statement fills the header of the request; it is taken not to answer `FAIL`. -/
def startNextOid : WalkItem :=
  match item.data with
  | none => stopItemPoll item
  | some ddata =>
    let ddata := { ddata with num := ddata.num + 1 }
    let item := { item with data := some ddata }
    if ((ddata.params.length / 2 : ℕ) : ℤ) ≤ ddata.num then stopItemPoll (submitResult ddata item)
    else
      match N.parseOid (ddata.params.getD (ddata.num.toNat * 2 + 1) []) with
      | none => stopItemPoll (item.preprocessError "snmp_parse_oid(): cannot parse OID")
      | some oid =>
        match N.printOid oid false with
        | none => stopItemPoll (item.preprocessError "snmp_print_oid(): cannot print OID with string indices.")
        | some strLen =>
          match N.printOid oid true with
          | none => stopItemPoll (item.preprocessError "snmp_print_oid(): cannot print OID  with numeric indices.")
          | some numLen =>
            sendPacket oid { item with
              data := some { ddata with
                rootOid := oid, rootOidStrLen := strLen, rootOidNumLen := numLen, lastOid := oid, oidsLooped := 0 } }

def saveResultValue (index value : Text) (ddata : DData) : DData :=
  let store := fun obj : DObject => { obj with values := obj.values.set ddata.num.toNat (some value) }
  if ddata.objects.any (·.index = index) then
    { ddata with objects := ddata.objects.map fun obj => if obj.index = index then store obj else obj }
  else
    { ddata with objects := ddata.objects ++ [store ⟨index, List.replicate (ddata.params.length / 2) none⟩] }

def processVar (var : Var) : Option (Bool × WalkItem) :=
  match item.data with
  | none => some (false, item)
  | some ddata =>
    if var.type = tpEndOfMibView ∨ var.oid.length < ddata.rootOid.length ∨
        ddata.rootOid ≠ var.oid.take ddata.rootOid.length then
      some (false, item)
    else if var.type = tpNoSuchInstance then
      some (false, item.preprocessError "No Such Object available on this agent at this OID")
    -- `asn1_cmp_oids` is zero
    else if ddata.lastOid = var.oid then
      some (false, item.preprocessError "Cannot walk item: oid is not increasing")
    else
      let looped := ddata.oidsLooped
      let ddata := { ddata with oidsLooped := looped + 1 }
      let item := { item with data := some ddata }
      if looped > snmpWalkMaxOids then
        some (false, item.preprocessError "Cannot walk item: too many oids or cycle")
      else if maxOidLen < var.oid.length then none
      else
        match N.chooseIndex var.oid ddata.rootOidStrLen ddata.rootOidNumLen with
        | none =>
          some (false,
            item.preprocessError "zbx_snmp_choose_index(): cannot choose appropriate index while walking for OID")
        | some index =>
          match N.setResult var with
          | some (some text) => some (true, { item with data := some (saveResultValue index text ddata) })
          | _ => some (true, item)

def processVars : List Var → WalkItem → Option (Bool × WalkItem)
  | [], item => some (true, item)
  | var :: vars, item =>
    (processVar N item var).bind fun (goesOn, item) => if goesOn then processVars vars item else some (false, item)

def walkProcessResult (vars : List Var) (item : WalkItem) : Option WalkItem :=
  match vars.getLast? with
  | none => some (startNextOid N item)
  | some last =>
    (processVars N vars item).bind fun (goesOn, item) =>
      if goesOn then
        item.data.map fun ddata => sendPacket last.oid { item with data := some { ddata with lastOid := last.oid } }
      else some (startNextOid N item)

def walkTimeout : Option WalkItem :=
  if snmpMaxRetries ≤ item.retries then
    some (returnItemToQueue { item.preprocessError "SNMP timeout: max retries exceeded" with data := none })
  else
    item.data.map fun ddata => { sendPacket ddata.lastOid item with retries := item.retries + 1 }

def walkSendFirstRequest (request : Option (List Text)) (item : WalkItem) : WalkItem :=
  match item.data with
  | some _ => item.preprocessError "Cannot start snmp walk: old request isn't finished yet"
  | none =>
    match ddataInit request with
    | .error text => { item with reports := item.reports ++ [.error text] }
    | .ok ddata => startNextOid N { item with data := some ddata }

def sendRequest (request : Option (List Text)) (item : WalkItem) : WalkItem :=
  walkSendFirstRequest N request { item with retries := 0 }

inductive Event where
  | response (vars : List Var)
  | timeout

def processResult (vars : List Var) (item : WalkItem) : Option WalkItem :=
  if item.pending then walkProcessResult N vars { item with pending := false, retries := 0 } else some item

def timeoutEvent : Option WalkItem :=
  if item.pending then walkTimeout { item with pending := false } else some item

def step (item : Option WalkItem) : Event → Option WalkItem
  | .response vars => item.bind (processResult N vars)
  | .timeout => item.bind timeoutEvent

def initItem : WalkItem := ⟨none, 0, false, [], 0, []⟩

def start (request : Option (List Text)) : Option WalkItem := some (sendRequest N request initItem)

end

section

def perOid : ℕ := (snmpMaxRetries + 1) * (snmpWalkMaxOids + 2)

def requestBound (oids : ℕ) : ℕ := oids * perOid

def oidsLeft (ddata : DData) : ℕ := (((ddata.params.length / 2 : ℕ) : ℤ) - 1 - ddata.num).toNat

def requestsLeft (item : WalkItem) (ddata : DData) : ℕ :=
  oidsLeft ddata * perOid + (snmpMaxRetries + 1) * (snmpWalkMaxOids + 1 - ddata.oidsLooped) +
    (snmpMaxRetries - item.retries)

structure Running (bound : ℕ) (item : WalkItem) (ddata : DData) : Prop where
  data : item.data = some ddata
  pending : item.pending = true
  returned : item.returned = 0
  retries : item.retries ≤ snmpMaxRetries
  num : -1 ≤ ddata.num
  looped : ddata.oidsLooped ≤ snmpWalkMaxOids + 1
  budget : item.sent.length + requestsLeft item ddata ≤ bound

structure Finished (bound : ℕ) (item : WalkItem) : Prop where
  data : item.data = none
  pending : item.pending = false
  returned : item.returned = 1
  budget : item.sent.length ≤ bound

structure Along (item item' : WalkItem) (ddata ddata' : DData) : Prop where
  data : item'.data = some ddata'
  same : ddata' = { ddata with oidsLooped := ddata'.oidsLooped, objects := ddata'.objects }
  pending : item'.pending = item.pending
  retries : item'.retries = item.retries
  sent : item'.sent = item.sent
  returned : item'.returned = item.returned

variable {N : NetSnmp} {item item' item'' : WalkItem} {ddata ddata' ddata'' : DData} {bound : ℕ}

lemma Along.refl (hdata : item.data = some ddata) : Along item item ddata ddata :=
  ⟨hdata, rfl, rfl, rfl, rfl, rfl⟩

lemma Along.trans (h : Along item item' ddata ddata') (h' : Along item' item'' ddata' ddata'') :
    Along item item'' ddata ddata'' := by
  refine ⟨h'.data, ?_, h'.pending.trans h.pending, h'.retries.trans h.retries, h'.sent.trans h.sent,
    h'.returned.trans h.returned⟩
  rw [h'.same, h.same]

lemma Along.num (h : Along item item' ddata ddata') : ddata'.num = ddata.num := by rw [h.same]

lemma Along.oidsLeft (h : Along item item' ddata ddata') : oidsLeft ddata' = oidsLeft ddata := by
  rw [h.same]
  rfl

lemma stopItemPoll_finished (hreturned : item.returned = 0) (hbudget : item.sent.length ≤ bound) :
    Finished bound (stopItemPoll item) := by
  refine ⟨rfl, rfl, ?_, hbudget⟩
  rw [stopItemPoll, returnItemToQueue, hreturned]

lemma startNextOid_spec (N : NetSnmp) (item : WalkItem) (hdata : item.data = some ddata)
    (hreturned : item.returned = 0) (hretries : item.retries = 0) (hnum : -1 ≤ ddata.num)
    (hbudget : item.sent.length + oidsLeft ddata * perOid ≤ bound) :
    Finished bound (startNextOid N item) ∨
      ∃ ddata', Running bound (startNextOid N item) ddata' ∧
        (startNextOid N item).sent.length = item.sent.length + 1 := by
  have hsent : item.sent.length ≤ bound := by omega
  rw [startNextOid, hdata]
  dsimp only
  split_ifs with hend
  · exact .inl (stopItemPoll_finished hreturned hsent)
  split
  · exact .inl (stopItemPoll_finished hreturned hsent)
  split
  · exact .inl (stopItemPoll_finished hreturned hsent)
  split
  · exact .inl (stopItemPoll_finished hreturned hsent)
  · refine .inr ⟨_, ⟨rfl, rfl, hreturned, ?_, ?_, Nat.zero_le _, ?_⟩, ?_⟩
    · simp only [sendPacket, hretries]
      exact Nat.zero_le _
    · dsimp only
      omega
    · have hleft : oidsLeft ddata = (((ddata.params.length / 2 : ℕ) : ℤ) - 1 - (ddata.num + 1)).toNat + 1 := by
        rw [oidsLeft]
        omega
      rw [hleft] at hbudget
      simp only [sendPacket, requestsLeft, oidsLeft, hretries, List.length_append, List.length_singleton, perOid,
        snmpMaxRetries, snmpWalkMaxOids] at hbudget ⊢
      omega
    · simp [sendPacket]

def Walked (ddata : DData) (var : Var) : Prop :=
  var.type ≠ tpEndOfMibView ∧ var.type ≠ tpNoSuchInstance ∧ ddata.rootOid <+: var.oid ∧ ddata.lastOid ≠ var.oid

variable (N) in
def Fits (ddata : DData) : List Var → ℕ → Prop
  | [], _ => True
  | var :: vars, looped =>
    Walked ddata var → looped ≤ snmpWalkMaxOids →
      var.oid.length ≤ maxOidLen ∧
        ((N.chooseIndex var.oid ddata.rootOidStrLen ddata.rootOidNumLen).isSome → Fits ddata vars (looped + 1))

lemma Along.fits (h : Along item item' ddata ddata') {vars : List Var} {looped : ℕ} :
    Fits N ddata' vars looped ↔ Fits N ddata vars looped := by
  rw [h.same]
  induction vars generalizing looped with
  | nil => exact Iff.rfl
  | cons var vars ih =>
    rw [Fits, Fits, ih]
    exact Iff.rfl

lemma walked_iff {var : Var} : Walked ddata var ↔
    ¬ (var.type = tpEndOfMibView ∨ var.oid.length < ddata.rootOid.length ∨
      ddata.rootOid ≠ var.oid.take ddata.rootOid.length) ∧
    var.type ≠ tpNoSuchInstance ∧ ddata.lastOid ≠ var.oid := by
  rw [not_or, not_or, not_not, ← List.prefix_iff_eq_take]
  constructor
  · rintro ⟨htype, hinstance, hroot, hlast⟩
    exact ⟨⟨htype, not_lt.mpr hroot.length_le, hroot⟩, hinstance, hlast⟩
  · rintro ⟨⟨htype, -, hroot⟩, hinstance, hlast⟩
    exact ⟨htype, hinstance, hroot, hlast⟩

lemma processVar_overrun {var : Var} (hdata : item.data = some ddata) (hwalked : Walked ddata var)
    (hle : ddata.oidsLooped ≤ snmpWalkMaxOids) (hlong : maxOidLen < var.oid.length) :
    processVar N item var = none := by
  obtain ⟨hin, hinstance, hlast⟩ := walked_iff.mp hwalked
  rw [processVar, hdata]
  dsimp only
  rw [if_neg hin, if_neg hinstance, if_neg hlast, if_neg (not_lt.mpr hle), if_pos hlong]

lemma processVar_spec {var : Var} (hdata : item.data = some ddata)
    (hfits : Walked ddata var → ddata.oidsLooped ≤ snmpWalkMaxOids → var.oid.length ≤ maxOidLen) :
    ∃ goesOn item' ddata', processVar N item var = some (goesOn, item') ∧ Along item item' ddata ddata' ∧
      (goesOn = true ↔ Walked ddata var ∧ ddata.oidsLooped ≤ snmpWalkMaxOids ∧
        (N.chooseIndex var.oid ddata.rootOidStrLen ddata.rootOidNumLen).isSome) ∧
      (goesOn = true → ddata'.oidsLooped = ddata.oidsLooped + 1) := by
  have hstops : ∀ {P : Prop}, ¬ P → ((false : Bool) = true ↔ P) := fun hp => iff_of_false Bool.false_ne_true hp
  rw [processVar, hdata]
  dsimp only
  split_ifs with hout hinstance hsame hlooped hlong
  · exact ⟨false, _, ddata, rfl, .refl hdata, hstops fun h => (walked_iff.mp h.1).1 hout, nofun⟩
  · exact ⟨false, _, ddata, rfl, ⟨hdata, rfl, rfl, rfl, rfl, rfl⟩, hstops fun h => h.1.2.1 hinstance, nofun⟩
  · exact ⟨false, _, ddata, rfl, ⟨hdata, rfl, rfl, rfl, rfl, rfl⟩, hstops fun h => h.1.2.2.2 hsame, nofun⟩
  · exact ⟨false, _, _, rfl, ⟨rfl, rfl, rfl, rfl, rfl, rfl⟩, hstops fun h => not_le.mpr hlooped h.2.1, nofun⟩
  all_goals
    have hle : ddata.oidsLooped ≤ snmpWalkMaxOids := not_lt.mp hlooped
    have hwalked : Walked ddata var := walked_iff.mpr ⟨hout, hinstance, hsame⟩
  · exact absurd (hfits hwalked hle) (not_le.mpr hlong)
  · cases hindex : N.chooseIndex var.oid ddata.rootOidStrLen ddata.rootOidNumLen with
    | none =>
      exact ⟨false, _, _, rfl, ⟨rfl, rfl, rfl, rfl, rfl, rfl⟩, hstops fun h => Bool.false_ne_true h.2.2, nofun⟩
    | some index =>
      have hgoes : true = true ↔ Walked ddata var ∧ ddata.oidsLooped ≤ snmpWalkMaxOids ∧ (some index).isSome :=
        iff_of_true rfl ⟨hwalked, hle, rfl⟩
      dsimp only
      split
      · refine ⟨true, _, _, rfl, ⟨rfl, ?_, rfl, rfl, rfl, rfl⟩, hgoes, fun _ => ?_⟩
        all_goals
          rw [saveResultValue]
          split_ifs <;> rfl
      · exact ⟨true, _, _, rfl, ⟨rfl, rfl, rfl, rfl, rfl, rfl⟩, hgoes, fun _ => rfl⟩

lemma processVars_spec (N : NetSnmp) (item : WalkItem) (vars : List Var) (hdata : item.data = some ddata)
    (hfits : Fits N ddata vars ddata.oidsLooped) :
    ∃ goesOn item' ddata', processVars N vars item = some (goesOn, item') ∧ Along item item' ddata ddata' ∧
      (goesOn = true → ddata'.oidsLooped = ddata.oidsLooped + vars.length ∧
        (vars ≠ [] → ddata'.oidsLooped ≤ snmpWalkMaxOids + 1)) := by
  induction vars generalizing item ddata with
  | nil => exact ⟨true, item, ddata, rfl, .refl hdata, fun _ => ⟨rfl, fun h => absurd rfl h⟩⟩
  | cons var vars ih =>
    obtain ⟨goesOn, item', ddata', hvar, halong, hgoes, hcount⟩ :=
      processVar_spec hdata (fun hwalked hle => (hfits hwalked hle).1)
    rw [processVars, hvar, Option.bind_some]
    dsimp only
    cases goesOn with
    | false => exact ⟨false, item', ddata', rfl, halong, nofun⟩
    | true =>
      obtain ⟨hwalked, hle, hindex⟩ := hgoes.mp rfl
      have hlooped := hcount rfl
      have hfits' : Fits N ddata' vars ddata'.oidsLooped := by
        rw [hlooped]
        exact halong.fits.mpr ((hfits hwalked hle).2 hindex)
      obtain ⟨goesOn, item'', ddata'', hvars, halong', hcount'⟩ := ih item' halong.data hfits'
      refine ⟨goesOn, item'', ddata'', hvars, halong.trans halong', ?_⟩
      intro hgoes
      obtain ⟨htotal, hbelow⟩ := hcount' hgoes
      rw [List.length_cons]
      refine ⟨by omega, fun _ => ?_⟩
      cases vars with
      | nil =>
        rw [List.length_nil] at htotal
        omega
      | cons v vars => exact hbelow (List.cons_ne_nil v vars)

lemma fits_of_processVars (item : WalkItem) {vars : List Var} (hdata : item.data = some ddata)
    (h : processVars N vars item ≠ none) : Fits N ddata vars ddata.oidsLooped := by
  induction vars generalizing item ddata with
  | nil => trivial
  | cons var vars ih =>
    rw [processVars] at h
    intro hwalked hle
    have hlen : var.oid.length ≤ maxOidLen := by
      by_contra hlong
      rw [processVar_overrun hdata hwalked hle (not_le.mp hlong)] at h
      exact h rfl
    refine ⟨hlen, fun hindex => ?_⟩
    obtain ⟨goesOn, item', ddata', hvar, halong, hgoes, hcount⟩ :=
      processVar_spec hdata (fun _ _ => hlen)
    obtain rfl : goesOn = true := hgoes.mpr ⟨hwalked, hle, hindex⟩
    rw [hvar, Option.bind_some] at h
    rw [← hcount rfl]
    exact halong.fits.mp (ih item' halong.data h)

inductive Proceeds (bound : ℕ) (item : WalkItem) : Option WalkItem → Prop
  | finished (item' : WalkItem) (hfinished : Finished bound item') : Proceeds bound item (some item')
  | sent (item' : WalkItem) (ddata : DData) (hrunning : Running bound item' ddata)
      (hsent : item'.sent.length = item.sent.length + 1) : Proceeds bound item (some item')

lemma Running.startNext (hrun : Running bound item ddata) (halong : Along item' item'' ddata ddata')
    (hsent : item'.sent = item.sent) (hretries : item'.retries = 0) (hreturned : item'.returned = 0) :
    Proceeds bound item (some (startNextOid N item'')) := by
  have hnum : -1 ≤ ddata'.num := by
    rw [halong.num]
    exact hrun.num
  have hbudget : item''.sent.length + oidsLeft ddata' * perOid ≤ bound := by
    have hbudget := hrun.budget
    rw [requestsLeft] at hbudget
    rw [halong.sent, hsent, halong.oidsLeft]
    omega
  rcases startNextOid_spec N item'' halong.data (halong.returned.trans hreturned) (halong.retries.trans hretries) hnum
      hbudget with hfinished | ⟨d, hrunning, hlen⟩
  · exact .finished _ hfinished
  · refine .sent _ d hrunning ?_
    rw [hlen, halong.sent, hsent]

lemma processResult_spec (hrun : Running bound item ddata) {vars : List Var}
    (hfits : Fits N ddata vars ddata.oidsLooped) : Proceeds bound item (processResult N vars item) := by
  rw [processResult, if_pos hrun.pending, walkProcessResult]
  cases hlast : vars.getLast? with
  | none =>
    exact hrun.startNext (.refl hrun.data) rfl rfl hrun.returned
  | some last =>
    have hne : vars ≠ [] := by
      rintro rfl
      cases hlast
    obtain ⟨goesOn, item', ddata', hvars, halong, hcount⟩ :=
      processVars_spec N { item with pending := false, retries := 0 } vars hrun.data hfits
    dsimp only
    rw [hvars, Option.bind_some]
    dsimp only
    cases goesOn with
    | false => exact hrun.startNext halong rfl rfl hrun.returned
    | true =>
      obtain ⟨htotal, hbelow⟩ := hcount rfl
      have hlooped := hbelow hne
      have hpos := List.length_pos_iff.mpr hne
      have hretries : item'.retries = 0 := halong.retries
      have hsent : item'.sent = item.sent := halong.sent
      rw [if_pos rfl, halong.data, Option.map_some]
      refine .sent _ _ ⟨rfl, rfl, halong.returned.trans hrun.returned, ?_, ?_, hlooped, ?_⟩ ?_
      · simp only [sendPacket, hretries]
        exact Nat.zero_le _
      · rw [show ({ ddata' with lastOid := last.oid } : DData).num = ddata.num from halong.num]
        exact hrun.num
      · have hbudget := hrun.budget
        have hold := hrun.retries
        have hleft : oidsLeft { ddata' with lastOid := last.oid } = oidsLeft ddata := halong.oidsLeft
        rw [requestsLeft] at hbudget ⊢
        rw [hleft]
        simp only [sendPacket, hretries, hsent, List.length_append, List.length_singleton, snmpMaxRetries,
          snmpWalkMaxOids] at hbudget hold hlooped ⊢
        omega
      · simp [sendPacket, hsent]

lemma timeoutEvent_spec (hrun : Running bound item ddata) : Proceeds bound item (timeoutEvent item) := by
  rw [timeoutEvent, if_pos hrun.pending, walkTimeout]
  have hbudget := hrun.budget
  dsimp only
  split_ifs with hretries
  · refine .finished _ ⟨rfl, rfl, ?_, ?_⟩
    · rw [returnItemToQueue, WalkItem.preprocessError, hrun.returned]
    · exact le_trans (Nat.le_add_right _ _) hbudget
  · rw [hrun.data, Option.map_some]
    have hold := hrun.retries
    refine .sent _ ddata ⟨rfl, rfl, hrun.returned, ?_, hrun.num, hrun.looped, ?_⟩ ?_
    · dsimp only
      omega
    · simp only [sendPacket, requestsLeft, List.length_append, List.length_singleton] at hbudget ⊢
      omega
    · simp [sendPacket]

end

section

variable {N : NetSnmp} {item : WalkItem} {ddata : DData} {bound : ℕ}

structure Bounded (bound : ℕ) (past : List Event) (item : WalkItem) : Prop where
  sent : item.sent.length ≤ bound
  once : item.returned ≤ 1
  waits : item.pending = true ↔ item.returned = 0
  ends : bound ≤ past.length → item.returned = 1

def Polled (bound : ℕ) (past : List Event) (item : Option WalkItem) : Prop :=
  ∃ it, item = some it ∧ Bounded bound past it

inductive Walking (bound : ℕ) (past : List Event) : Option WalkItem → Prop
  | finished (item : WalkItem) (hfinished : Finished bound item) : Walking bound past (some item)
  | running (item : WalkItem) (ddata : DData) (hrunning : Running bound item ddata)
      (hsent : item.sent.length = past.length + 1) : Walking bound past (some item)

lemma Walking.polled {past : List Event} {state : Option WalkItem} (h : Walking bound past state) :
    Polled bound past state := by
  cases h with
  | finished item hfinished =>
    refine ⟨item, rfl, hfinished.budget, hfinished.returned.le, ?_, fun _ => hfinished.returned⟩
    rw [hfinished.pending, hfinished.returned]
    decide
  | running item ddata hrunning hsent =>
    have hbudget := hrunning.budget
    refine ⟨item, rfl, by omega, by rw [hrunning.returned]; exact Nat.zero_le 1, ?_, fun hle => by omega⟩
    exact iff_of_true hrunning.pending hrunning.returned

variable (N) in
def ResponseFits (t : Transition (Option WalkItem) Event) : Prop :=
  ∀ item ddata vars, t.source = some item → item.data = some ddata → t.event = .response vars →
    Fits N ddata vars ddata.oidsLooped

lemma Proceeds.walking {past : List Event} {event : Event} {state : Option WalkItem} (h : Proceeds bound item state)
    (hsent : item.sent.length = past.length + 1) : Walking bound (past ++ [event]) state := by
  cases h with
  | finished item' hfinished => exact .finished item' hfinished
  | sent item' ddata hrunning hsent' =>
    refine .running item' ddata hrunning ?_
    rw [hsent', hsent, List.length_append, List.length_singleton]

lemma step_walking {past : List Event} {state : Option WalkItem} {event : Event} (h : Walking bound past state)
    (hfits : ResponseFits N ⟨past, state, event, step N state event⟩) :
    Walking bound (past ++ [event]) (step N state event) := by
  cases h with
  | finished item hfinished =>
    have hstays : step N (some item) event = some item := by
      cases event with
      | response vars => simp [step, processResult, hfinished.pending]
      | timeout => simp [step, timeoutEvent, hfinished.pending]
    rw [hstays]
    exact .finished item hfinished
  | running item ddata hrunning hsent =>
    cases event with
    | response vars =>
      have hproceeds := processResult_spec hrunning (hfits item ddata vars rfl hrunning.data rfl)
      exact hproceeds.walking hsent
    | timeout => exact (timeoutEvent_spec hrunning).walking hsent

lemma ddataInit_ok {request : Option (List Text)} (h : ddataInit request = .ok ddata) :
    ddata.num = -1 ∧ ∃ params, request = some params ∧ ddata.params = params := by
  cases request with
  | none => cases h
  | some params =>
    simp only [ddataInit] at h
    split at h
    · cases h
    split at h
    · cases h
    split at h
    · cases h
    cases h
    exact ⟨rfl, params, rfl, rfl⟩

def oidsOf (request : Option (List Text)) : ℕ := (request.getD []).length / 2

lemma start_walking {request : Option (List Text)} (h : ddataInit request = .ok ddata) :
    Walking (requestBound (oidsOf request)) [] (start N request) := by
  obtain ⟨hnum, params, rfl, hparams⟩ := ddataInit_ok h
  have hleft : oidsLeft ddata = oidsOf (some params) := by
    rw [oidsLeft, hnum, hparams, oidsOf, Option.getD_some]
    omega
  have hbudget : ([] : List Oid).length + oidsLeft ddata * perOid ≤ requestBound (oidsOf (some params)) := by
    rw [hleft, List.length_nil, Nat.zero_add]
    exact le_rfl
  have hstart : start N (some params) =
      some (startNextOid N { initItem with retries := 0, data := some ddata }) := by
    rw [start, sendRequest, walkSendFirstRequest]
    dsimp only [initItem]
    rw [h]
  rw [hstart]
  rcases startNextOid_spec N { initItem with retries := 0, data := some ddata } rfl rfl rfl hnum.ge hbudget with
    hfinished | ⟨ddata', hrunning, hsent⟩
  · exact .finished _ hfinished
  · exact .running _ ddata' hrunning hsent

lemma start_not_polled {request : Option (List Text)} {text : Text} (h : ddataInit request = .error text) (bound : ℕ) :
    ¬ Polled bound [] (start N request) := by
  have hstart : start N request = some { initItem with reports := [.error text] } := by
    rw [start, sendRequest, walkSendFirstRequest]
    dsimp only [initItem]
    rw [h]
    rfl
  rw [hstart]
  rintro ⟨item, hitem, hbounded⟩
  cases hitem
  exact Bool.false_ne_true (hbounded.waits.mpr rfl)

lemma responseFits_of_polled {past : List Event} {state : Option WalkItem} {event : Event}
    (h : Walking bound past state) (hpolled : Polled bound (past ++ [event]) (step N state event)) :
    ResponseFits N ⟨past, state, event, step N state event⟩ := by
  rintro item ddata vars rfl hdata rfl
  cases h with
  | finished item hfinished =>
    rw [hfinished.data] at hdata
    cases hdata
  | running item running hrunning hsent =>
    obtain rfl : running = ddata := Option.some.inj (hrunning.data.symm.trans hdata)
    cases hlast : vars.getLast? with
    | none =>
      rw [List.getLast?_eq_none_iff.mp hlast]
      trivial
    | some last =>
      obtain ⟨item', hitem', -⟩ := hpolled
      refine fits_of_processVars { item with pending := false, retries := 0 } hdata ?_
      intro hnone
      rw [step, Option.bind_some, processResult, if_pos hrunning.pending, walkProcessResult, hlast] at hitem'
      dsimp only at hitem'
      rw [hnone] at hitem'
      cases hitem'

def plainNet : NetSnmp where
  parseOid _ := some [1, 3, 6]
  printOid _ _ := some 7
  chooseIndex oid _ _ := if oid.length = 4 then some "1".toList else none
  setResult _ := some (some "text".toList)

end

end Glaber.Poller.SnmpWalk
