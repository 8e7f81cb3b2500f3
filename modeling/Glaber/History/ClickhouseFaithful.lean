import Glaber.History.Clickhouse

namespace Glaber.History.Clickhouse

open Lib.Print Lib.SqlValues

section

variable {D : Type} (F : FloatFormat D)

def intCell (n : ℤ) : List Char × Field := (decimal n, .bare (decimal n))

def textCell (text : List Char) : List Char × Field := ('\'' :: escape text ++ ['\''], .text text)

def rawCell (text : List Char) : List Char × Field := ('\'' :: text ++ ['\''], .text text)

def dayCell (sec : ℤ) : List Char × Field :=
  ("CAST".toList ++ '(' :: (decimal sec ++ " as date".toList) ++ [')'] ++ [' '],
    .call "CAST".toList (decimal sec ++ " as date".toList))

lemma dayCell_fst (sec : ℤ) :
    (dayCell sec).1 = "CAST".toList ++ '(' :: (decimal sec ++ " as date".toList) ++ [')'] ++ [' '] := rfl

lemma dayCell_snd (sec : ℤ) : (dayCell sec).2 = .call "CAST".toList (decimal sec ++ " as date".toList) := rfl

def blanked (cell : List Char × Field) : List Char × Field := (' ' :: cell.1, cell.2)

def valueCells : HistoryValue D → List (List Char × Field)
  | .ui64 value => [intCell (ld value)]
  | .dbl value => [(F.print value, .bare (F.print value))]
  | .str value | .text value => [blanked (textCell (value.getD []))]
  | .log value => [textCell value.value, rawCell (printString value.source), intCell value.severity,
      blanked (intCell (ld value.logeventid))]

variable (conf : Conf)

def nsCells (h : DcHistory D) : List (List Char × Field) :=
  if conf.disableNanoseconds then [] else [intCell h.ns]

def nameCells (h : DcHistory D) : List (List Char × Field) :=
  if conf.disableHostItemNames then [] else [textCell (h.hostName.getD []), textCell (h.itemKey.getD [])]

def tailCells (h : DcHistory D) : List (List Char × Field) :=
  [intCell (ld h.itemid), intCell h.sec] ++ valueCells F h.value ++ nsCells conf h ++ nameCells conf h

def fields (h : DcHistory D) : List Field := (dayCell h.sec :: tailCells F conf h).map Prod.snd

def commaed (cells : List (List Char × Field)) : List Char := cells.flatMap fun cell => ',' :: cell.1

end

section

variable {D : Type} {F : FloatFormat D}

lemma separator_of_decimal {n : ℤ} {c : Char} (h : c ∈ decimal n) : separator c = false := by
  rcases mem_decimal h with rfl | hdigit
  · decide
  · simp only [separator, Bool.or_eq_false_iff, decide_eq_false_iff_not]
    refine ⟨⟨⟨⟨?_, ?_⟩, ?_⟩, ?_⟩, ?_⟩ <;> rintro rfl <;> exact absurd hdigit (by decide)

lemma intCell_prints (n : ℤ) : Prints (intCell n).1 (intCell n).2 :=
  prints_bare (decimal_ne_nil n) fun _ hc => separator_of_decimal hc

lemma textCell_prints (text : List Char) : Prints (textCell text).1 (textCell text).2 := prints_literal text

lemma rawCell_prints {text : List Char} (h : Plain text) : Prints (rawCell text).1 (rawCell text).2 := by
  have hcell := textCell_prints text
  unfold textCell at hcell
  rwa [escape_plain h] at hcell

lemma dayCell_cell (sec : ℤ) : Cell (dayCell sec).1 (dayCell sec).2 := by
  apply Prints.cell_blank
  apply prints_call
  · decide
  · decide
  · intro c hc
    rcases List.mem_append.1 hc with hc | hc
    · rintro rfl
      exact absurd (separator_of_decimal hc) (by decide)
    · rintro rfl
      exact absurd hc (by decide)

def SourcePlain : HistoryValue D → Prop
  | .log value => Plain (printString value.source)
  | _ => True

lemma valueCells_cell {value : HistoryValue D} (h : SourcePlain value) :
    ∀ cell ∈ valueCells F value, Cell cell.1 cell.2 := by
  cases value with
  | dbl x =>
      intro cell hcell
      rw [List.mem_singleton.1 hcell]
      exact (prints_bare (F.print_ne_nil x) (F.print_word x)).cell
  | ui64 n =>
      intro cell hcell
      rw [List.mem_singleton.1 hcell]
      exact (intCell_prints _).cell
  | str text | text text =>
      intro cell hcell
      rw [List.mem_singleton.1 hcell]
      exact (textCell_prints _).blank.cell
  | log value =>
      intro cell hcell
      simp only [valueCells, List.mem_cons, List.not_mem_nil, or_false] at hcell
      rcases hcell with rfl | rfl | rfl | rfl
      · exact (textCell_prints _).cell
      · exact (rawCell_prints h).cell
      · exact (intCell_prints _).cell
      · exact (intCell_prints _).blank.cell

lemma nsCells_cell (conf : Conf) (h : DcHistory D) : ∀ cell ∈ nsCells conf h, Cell cell.1 cell.2 := by
  intro cell hcell
  unfold nsCells at hcell
  split_ifs at hcell
  · simp at hcell
  · rw [List.mem_singleton.1 hcell]
    exact (intCell_prints _).cell

lemma nameCells_cell (conf : Conf) (h : DcHistory D) : ∀ cell ∈ nameCells conf h, Cell cell.1 cell.2 := by
  intro cell hcell
  unfold nameCells at hcell
  split_ifs at hcell
  · simp at hcell
  · simp only [List.mem_cons, List.not_mem_nil, or_false] at hcell
    rcases hcell with rfl | rfl <;> exact (textCell_prints _).cell

lemma tailCells_cell {conf : Conf} {h : DcHistory D} (hs : SourcePlain h.value) :
    ∀ cell ∈ tailCells F conf h, Cell cell.1 cell.2 := by
  intro cell hcell
  simp only [tailCells, List.mem_append, List.mem_cons, List.not_mem_nil, or_false] at hcell
  rcases hcell with ((hcell | hcell) | hcell) | hcell
  · rcases hcell with rfl | rfl <;> exact (intCell_prints _).cell
  · exact valueCells_cell hs cell hcell
  · exact nsCells_cell conf h cell hcell
  · exact nameCells_cell conf h cell hcell

lemma escaped_eq (text : Option (List Char)) : escaped text = escape (text.getD []) := by
  cases text <;> rfl

lemma tupleText_eq (conf : Conf) (h : DcHistory D) (rest : List Char) :
    tupleText F conf h ++ rest = '(' :: ((dayCell h.sec).1 ++ (commaed (tailCells F conf h) ++ ')' :: rest)) := by
  have hvalue : valueText F h.value = commaed (valueCells F h.value) := by
    rw [valueText.eq_def]
    cases h.value <;> simp [valueCells, commaed, intCell, textCell, rawCell, blanked, escaped_eq]
  have hns : (if conf.disableNanoseconds then [] else ",".toList ++ decimal h.ns) = commaed (nsCells conf h) := by
    unfold nsCells
    split_ifs <;> simp [commaed, intCell]
  have hnames : (if conf.disableHostItemNames then []
      else ",'".toList ++ escaped h.hostName ++ "','".toList ++ escaped h.itemKey ++ "'".toList) =
        commaed (nameCells conf h) := by
    unfold nameCells
    split_ifs <;> simp [commaed, textCell, escaped_eq]
  unfold tupleText tailCells
  rw [hvalue, hns, hnames]
  simp [commaed, dayCell_fst, intCell]

lemma readFields_commaed {cell : List Char × Field} {cells : List (List Char × Field)} (hcell : Cell cell.1 cell.2)
    (hcells : ∀ c ∈ cells, Cell c.1 c.2) (fuel : ℕ) (rest : List Char) :
    readFields (fuel + cells.length + 1) (cell.1 ++ (commaed cells ++ ')' :: rest)) =
      some ((cell :: cells).map Prod.snd, rest) := by
  induction cells generalizing cell with
  | nil => exact readFields_close hcell fuel rest
  | cons next cells ih =>
      have hnext := ih (hcells next List.mem_cons_self) fun c hc => hcells c (List.mem_cons_of_mem next hc)
      have hstep := readFields_comma hcell (fuel + cells.length + 1) (next.1 ++ (commaed cells ++ ')' :: rest))
      rw [hnext] at hstep
      simpa [commaed, Nat.add_assoc] using hstep

lemma length_commaed (cells : List (List Char × Field)) : cells.length ≤ (commaed cells).length := by
  induction cells with
  | nil => simp [commaed]
  | cons cell cells ih =>
      simp only [commaed, List.flatMap_cons, List.length_append, List.length_cons] at ih ⊢
      omega

lemma readFields_tuple {conf : Conf} {h : DcHistory D} (hs : SourcePlain h.value) {text rest : List Char}
    (htext : tupleText F conf h ++ rest = '(' :: text) :
    readFields text.length text = some (fields F conf h, rest) := by
  rw [tupleText_eq, List.cons_inj_right] at htext
  subst htext
  have hlen := length_commaed (tailCells F conf h)
  obtain ⟨fuel, hfuel⟩ : ∃ fuel, ((dayCell h.sec).1 ++ (commaed (tailCells F conf h) ++ ')' :: rest)).length =
      fuel + (tailCells F conf h).length + 1 := by
    refine ⟨((dayCell h.sec).1 ++ (commaed (tailCells F conf h) ++ ')' :: rest)).length -
      (tailCells F conf h).length - 1, ?_⟩
    simp only [List.length_append, List.length_cons]
    omega
  rw [hfuel]
  exact readFields_commaed (dayCell_cell h.sec) (tailCells_cell hs) fuel rest

end

section

variable {D : Type} {F : FloatFormat D}

def printedValue (F : FloatFormat D) : HistoryValue D → Option (RowValue D)
  | .dbl value => (F.read (F.print value)).map .dbl
  | .ui64 value => some (.int (ld value))
  | .str value | .text value => some (.text (value.getD []))
  | .log value => some (.log value.value (printString value.source) value.severity (ld value.logeventid))

lemma fieldInt_intCell (n : ℤ) : fieldInt (intCell n).2 = some n := readDecimal_decimal n

lemma fieldDay_dayCell (sec : ℤ) : fieldDay (dayCell sec).2 = some sec := by
  have hword : ∀ c ∈ decimal sec, (decide (c ≠ ' ')) = true := by
    intro c hc
    simp only [decide_eq_true_eq]
    rintro rfl
    exact absurd (separator_of_decimal hc) (by decide)
  have hdrop : (decimal sec ++ " as date".toList).dropWhile (· ≠ ' ') = " as date".toList := by
    rw [List.dropWhile_append_of_pos hword]
    rfl
  have htake : (decimal sec ++ " as date".toList).takeWhile (· ≠ ' ') = decimal sec := by
    have hblank : " as date".toList.takeWhile (· ≠ ' ') = [] := rfl
    rw [List.takeWhile_append_of_pos hword, hblank, List.append_nil]
  rw [dayCell_snd, fieldDay, hdrop, htake, readDecimal_decimal]
  exact if_pos ⟨rfl, rfl⟩

lemma rowValue_cells (value : HistoryValue D) (rest : List Field) :
    rowValue F value.type ((valueCells F value).map Prod.snd ++ rest) = (printedValue F value).map fun v => (v, rest) := by
  cases value with
  | dbl x =>
      simp only [valueCells, HistoryValue.type, rowValue, printedValue, List.map_cons, List.map_nil, List.singleton_append,
        Option.map_map]
      rfl
  | ui64 n =>
      simp [valueCells, HistoryValue.type, rowValue, printedValue, fieldInt_intCell]
  | str text | text text =>
      simp [valueCells, HistoryValue.type, rowValue, printedValue, fieldText, textCell, blanked]
  | log value =>
      simp [valueCells, HistoryValue.type, rowValue, printedValue, fieldText, fieldInt_intCell, textCell, rawCell, blanked]

lemma rowNs_cells (conf : Conf) (h : DcHistory D) (rest : List Field) :
    rowNs conf ((nsCells conf h).map Prod.snd ++ rest) = some (if conf.disableNanoseconds then none else some h.ns, rest) := by
  unfold rowNs nsCells
  cases conf.disableNanoseconds <;> simp [fieldInt_intCell]

lemma rowNames_cells (conf : Conf) (h : DcHistory D) :
    rowNames conf ((nameCells conf h).map Prod.snd) =
      some (if conf.disableHostItemNames then none else some (h.hostName.getD [], h.itemKey.getD [])) := by
  unfold rowNames nameCells
  cases conf.disableHostItemNames <;> simp [fieldText, textCell]

lemma readRow_fields (conf : Conf) (h : DcHistory D) :
    readRow F conf h.value.type (fields F conf h) =
      (printedValue F h.value).map fun value => { rowOf conf h with itemid := ld h.itemid, value := value } := by
  have hfields : fields F conf h = (dayCell h.sec).2 :: (intCell (ld h.itemid)).2 :: (intCell h.sec).2 ::
      ((valueCells F h.value).map Prod.snd ++ ((nsCells conf h).map Prod.snd ++ (nameCells conf h).map Prod.snd)) := by
    simp [fields, tailCells]
  rw [hfields, readRow, rowValue_cells]
  cases printedValue F h.value with
  | none => rfl
  | some value =>
      simp only [Option.map_some, Option.bind_eq_bind, Option.bind_some, rowNs_cells, rowNames_cells, fieldDay_dayCell,
        fieldInt_intCell]
      rfl

lemma printedValue_eq_iff {value : HistoryValue D} (hs : SourcePlain value) :
    printedValue F value = some (rowOfValue value) ↔ ValueKept F value := by
  cases value with
  | dbl x => simp [printedValue, rowOfValue, ValueKept, Option.map_eq_some_iff]
  | ui64 n => simp [printedValue, rowOfValue, ValueKept, ld_eq_natCast_iff]
  | str text | text text => simp [printedValue, rowOfValue, ValueKept]
  | log value =>
      obtain ⟨logeventid, severity, source, text⟩ := value
      cases source with
      | none => simp [printedValue, rowOfValue, ValueKept, printString]
      | some source =>
          have hplain : Plain source := hs
          simp [printedValue, rowOfValue, ValueKept, ld_eq_natCast_iff, printString, hplain]

lemma readRow_fields_iff {conf : Conf} {h : DcHistory D} (hs : SourcePlain h.value) :
    readRow F conf h.value.type (fields F conf h) = some (rowOf conf h) ↔ Kept F h := by
  have hitemid : ld h.itemid = h.itemid.toNat ↔ h.itemid.toNat < 2 ^ 63 := by simp [ld_eq_natCast_iff]
  rw [readRow_fields, Kept, ← hitemid, ← printedValue_eq_iff hs]
  cases hvalue : printedValue F h.value with
  | none => simp
  | some value =>
      simp only [Option.map_some, Option.some.injEq]
      constructor
      · intro heq
        exact ⟨congrArg Row.itemid heq, congrArg Row.value heq⟩
      · rintro ⟨hid, hval⟩
        rw [hid, hval]
        rfl

lemma ValueKept.sourcePlain {value : HistoryValue D} (h : ValueKept F value) : SourcePlain value := by
  cases value with
  | log value =>
      obtain ⟨-, source, hsource, hplain⟩ := h
      simpa [SourcePlain, printString, hsource] using hplain
  | dbl _ | ui64 _ | str _ | text _ => trivial

lemma readField_quote (text : List Char) :
    readField ('\'' :: text) = (readLiteral text).map fun r => (.text r.1, r.2) := by
  unfold readField
  rw [skipBlanks_cons (by decide)]
  rfl

lemma readFields_head {fuel : ℕ} {text rest : List Char} {out : List Field} (h : readFields fuel text = some (out, rest)) :
    ∃ field rest' more, readField text = some (field, rest') ∧ out = field :: more := by
  cases fuel with
  | zero => simp [readFields] at h
  | succ fuel =>
      rw [readFields] at h
      obtain ⟨⟨field, rest'⟩, hfield, h⟩ := Option.bind_eq_some_iff.1 h
      refine ⟨field, rest', ?_⟩
      dsimp only at h
      split at h
      · obtain ⟨⟨more, rest''⟩, -, h⟩ := Option.bind_eq_some_iff.1 h
        simp only [Option.pure_def, Option.some.injEq, Prod.mk.injEq] at h
        exact ⟨more, hfield, h.1.symm⟩
      · simp only [Option.pure_def, Option.some.injEq, Prod.mk.injEq] at h
        exact ⟨[], hfield, h.1.symm⟩
      · simp at h

lemma source_of_readRow {conf : Conf} {day itemid clock value : Field} {source : List Char} {more : List Field}
    {row : Row D} (h : readRow F conf .log (day :: itemid :: clock :: value :: .text source :: more) = some row) :
    ∃ text severity logeventid, row.value = .log text source severity logeventid := by
  rw [readRow] at h
  obtain ⟨⟨rowvalue, rest⟩, hvalue, h⟩ := Option.bind_eq_some_iff.1 h
  obtain ⟨⟨ns, rest'⟩, -, h⟩ := Option.bind_eq_some_iff.1 h
  obtain ⟨_, -, h⟩ := Option.bind_eq_some_iff.1 h
  obtain ⟨_, -, h⟩ := Option.bind_eq_some_iff.1 h
  obtain ⟨_, -, h⟩ := Option.bind_eq_some_iff.1 h
  obtain ⟨_, -, h⟩ := Option.bind_eq_some_iff.1 h
  simp only [Option.pure_def, Option.some.injEq] at h
  subst h
  match more, hvalue with
  | severity :: logeventid :: more, hvalue =>
      rw [rowValue] at hvalue
      obtain ⟨text, -, hvalue⟩ := Option.bind_eq_some_iff.1 hvalue
      obtain ⟨source', hsource, hvalue⟩ := Option.bind_eq_some_iff.1 hvalue
      obtain ⟨severity, -, hvalue⟩ := Option.bind_eq_some_iff.1 hvalue
      obtain ⟨logeventid, -, hvalue⟩ := Option.bind_eq_some_iff.1 hvalue
      simp only [Option.pure_def, Option.some.injEq, Prod.mk.injEq] at hvalue
      simp only [fieldText, Option.some.injEq] at hsource
      exact ⟨text, severity, logeventid, by rw [← hvalue.1, ← hsource]⟩

lemma plain_of_readRow {conf : Conf} {h : DcHistory D} {log : LogValue} (hlog : h.value = .log log) {text rest rest' : List Char}
    (htext : tupleText F conf h ++ rest = '(' :: text) {out : List Field} (hread : readFields text.length text = some (out, rest'))
    (hrow : readRow F conf h.value.type out = some (rowOf conf h)) : SourcePlain h.value := by
  rw [tupleText_eq, List.cons_inj_right] at htext
  set before : List (List Char × Field) := [dayCell h.sec, intCell (ld h.itemid), intCell h.sec, textCell log.value]
    with hbefore
  obtain ⟨after, hafter⟩ : ∃ after, text = withCommas before ('\'' :: (printString log.source ++ '\'' :: after)) := by
    refine ⟨commaed ([intCell log.severity, blanked (intCell (ld log.logeventid))] ++ nsCells conf h ++ nameCells conf h) ++
      ')' :: rest, ?_⟩
    rw [← htext, hbefore]
    simp [tailCells, hlog, valueCells, commaed, withCommas, rawCell]
  have hcells : ∀ cell ∈ before, Cell cell.1 cell.2 := by
    intro cell hcell
    simp only [hbefore, List.mem_cons, List.not_mem_nil, or_false] at hcell
    rcases hcell with rfl | rfl | rfl | rfl
    · exact dayCell_cell _
    · exact (intCell_prints _).cell
    · exact (intCell_prints _).cell
    · exact (textCell_prints _).cell
  obtain ⟨fuel, hfuel⟩ : ∃ fuel, text.length = fuel + before.length := by
    have hlen := length_withCommas before ('\'' :: (printString log.source ++ '\'' :: after))
    rw [← hafter] at hlen
    exact ⟨text.length - before.length, by omega⟩
  rw [hfuel, hafter, readFields_withCommas hcells] at hread
  obtain ⟨⟨fs, rest''⟩, hfs, hout⟩ := Option.map_eq_some_iff.1 hread
  obtain ⟨field, rest₃, more, hfield, rfl⟩ := readFields_head hfs
  rw [readField_quote] at hfield
  obtain ⟨⟨source, rest₄⟩, hliteral, hsource⟩ := Option.map_eq_some_iff.1 hfield
  have hout : out = (dayCell h.sec).2 :: (intCell (ld h.itemid)).2 :: (intCell h.sec).2 :: (textCell log.value).2 ::
      .text source :: more := by
    have hfirst : Field.text source = field := congrArg Prod.fst hsource
    rw [hfirst]
    exact (congrArg Prod.fst hout).symm
  have hrowsource : source = log.source.getD [] := by
    rw [hout, hlog] at hrow
    obtain ⟨text, severity, logeventid, hvalue⟩ := source_of_readRow hrow
    simp only [rowOf, hlog, rowOfValue, RowValue.log.injEq] at hvalue
    exact hvalue.2.1.symm
  rw [hlog]
  show Plain (printString log.source)
  cases hs : log.source with
  | none => decide
  | some given =>
      rw [hs] at hliteral hrowsource
      simp only [printString, Option.getD_some] at hliteral hrowsource ⊢
      subst hrowsource
      exact (readLiteral_raw_iff _ _).1 ⟨_, hliteral⟩

end

section

variable {D : Type} {F : FloatFormat D}

lemma tuple_kept {conf : Conf} {h : DcHistory D} {text rest rest' : List Char} {out : List Field}
    (htext : tupleText F conf h ++ rest = '(' :: text) (hread : readFields text.length text = some (out, rest'))
    (hrow : readRow F conf h.value.type out = some (rowOf conf h)) : Kept F h ∧ rest' = rest := by
  have hs : SourcePlain h.value := by
    cases hvalue : h.value with
    | log log =>
        have hplain := plain_of_readRow hvalue htext hread hrow
        rwa [hvalue] at hplain
    | dbl _ | ui64 _ | str _ | text _ => trivial
  rw [readFields_tuple hs htext, Option.some.injEq, Prod.mk.injEq] at hread
  obtain ⟨rfl, rfl⟩ := hread
  exact ⟨(readRow_fields_iff hs).1 hrow, rfl⟩

def tuplesText (F : FloatFormat D) (conf : Conf) (h : DcHistory D) (hs : List (DcHistory D)) : List Char :=
  tupleText F conf h ++ hs.flatMap fun h => ',' :: tupleText F conf h

def statement (F : FloatFormat D) (conf : Conf) (type : ValueType) : List (DcHistory D) → List Char
  | [] => []
  | h :: hs => headerText conf type ++ tuplesText F conf h hs

variable (conf : Conf)

lemma tupleText_open (h : DcHistory D) (rest : List Char) :
    ∃ text, tupleText F conf h ++ rest = '(' :: text := ⟨_, tupleText_eq conf h rest⟩

lemma readTuples_open {fuel : ℕ} {text : List Char} :
    readTuples (fuel + 1) ('(' :: text) = (readFields text.length text).bind fun r =>
      match r.2 with
      | [] => some [r.1]
      | ',' :: rest => (readTuples fuel rest).map (r.1 :: ·)
      | _ => none := by
  rw [readTuples, skipBlanks_cons (by decide)]
  simp only [Option.bind_eq_bind]
  congr 1
  funext r
  obtain ⟨fields, rest⟩ := r
  cases rest with
  | nil => rfl
  | cons c rest =>
      by_cases hc : c = ','
      · subst hc
        cases hr : readTuples fuel rest <;> simp [hr]
      · simp [hc]

lemma readTuples_of_kept {conf : Conf} {h : DcHistory D} {hs : List (DcHistory D)} (hk : ∀ x ∈ h :: hs, Kept F x) {fuel : ℕ}
    (hfuel : hs.length < fuel) :
    readTuples fuel (tuplesText F conf h hs) = some ((h :: hs).map (fields F conf)) := by
  induction hs generalizing h fuel with
  | nil =>
      obtain ⟨fuel, rfl⟩ := Nat.exists_eq_add_one_of_ne_zero (Nat.ne_of_gt hfuel)
      obtain ⟨text, htext⟩ := tupleText_open (F := F) conf h []
      have hread := readFields_tuple (hk h List.mem_cons_self).2.sourcePlain htext
      rw [show tuplesText F conf h [] = '(' :: text from htext, readTuples_open, hread]
      rfl
  | cons next hs ih =>
      obtain ⟨fuel, rfl⟩ := Nat.exists_eq_add_one_of_ne_zero (Nat.ne_of_gt (Nat.zero_lt_of_lt hfuel))
      obtain ⟨text, htext⟩ := tupleText_open (F := F) conf h (',' :: tuplesText F conf next hs)
      have hread := readFields_tuple (hk h List.mem_cons_self).2.sourcePlain htext
      have hnext : readTuples fuel (tuplesText F conf next hs) = some ((next :: hs).map (fields F conf)) :=
        ih (fun x hx => hk x (List.mem_cons_of_mem h hx)) (by simpa using hfuel)
      rw [show tuplesText F conf h (next :: hs) = '(' :: text from by rw [← htext]; simp [tuplesText], readTuples_open,
        hread, Option.bind_some]
      show (readTuples fuel (tuplesText F conf next hs)).map (fields F conf h :: ·) = _
      rw [hnext]
      rfl

lemma first_kept {conf : Conf} {h : DcHistory D} {rest : List Char} {fuel : ℕ}
    {tuples : List (List Field)} {rows : List (Option (Row D))}
    (hread : readTuples fuel (tupleText F conf h ++ rest) = some tuples)
    (hrows : tuples.map (readRow F conf h.value.type) = some (rowOf conf h) :: rows) :
    Kept F h ∧ ((rest = [] ∧ rows = []) ∨ ∃ fuel' rest' more, rest = ',' :: rest' ∧ readTuples fuel' rest' = some more ∧
      more.map (readRow F conf h.value.type) = rows) := by
  cases fuel with
  | zero => simp [readTuples] at hread
  | succ fuel =>
      obtain ⟨text, htext⟩ := tupleText_open (F := F) conf h rest
      rw [htext, readTuples_open] at hread
      obtain ⟨⟨out, rest'⟩, hfields, hread⟩ := Option.bind_eq_some_iff.1 hread
      dsimp only at hread
      split at hread
      · simp only [Option.some.injEq] at hread
        subst hread
        simp only [List.map_cons, List.map_nil, List.cons.injEq] at hrows
        obtain ⟨hkept, hrest⟩ := tuple_kept htext hfields hrows.1
        exact ⟨hkept, .inl ⟨hrest.symm, hrows.2.symm⟩⟩
      · obtain ⟨more, hmore, rfl⟩ := Option.map_eq_some_iff.1 hread
        simp only [List.map_cons, List.cons.injEq] at hrows
        obtain ⟨hkept, hrest⟩ := tuple_kept htext hfields hrows.1
        exact ⟨hkept, .inr ⟨fuel, _, more, hrest.symm, hmore, hrows.2⟩⟩
      · simp at hread

lemma kept_of_readTuples {conf : Conf} {h : DcHistory D} {hs : List (DcHistory D)} {fuel : ℕ} {tuples : List (List Field)}
    {type : ValueType} (htype : ∀ x ∈ h :: hs, x.value.type = type)
    (hread : readTuples fuel (tuplesText F conf h hs) = some tuples)
    (hrows : tuples.map (readRow F conf type) = (h :: hs).map fun h => some (rowOf conf h)) : ∀ x ∈ h :: hs, Kept F x := by
  induction hs generalizing h fuel tuples with
  | nil =>
      rw [← htype h List.mem_cons_self] at hrows
      have hkept := (first_kept hread hrows).1
      intro x hx
      rw [List.mem_singleton.1 hx]
      exact hkept
  | cons next hs ih =>
      have hrows' := hrows
      rw [← htype h List.mem_cons_self] at hrows'
      obtain ⟨hkept, ⟨hnil, -⟩ | ⟨fuel', rest', more, hrest, hmore, hmorerows⟩⟩ := first_kept hread hrows'
      · simp at hnil
      · have htail : rest' = tuplesText F conf next hs := by
          simpa [tuplesText] using hrest.symm
        subst htail
        rw [htype h List.mem_cons_self] at hmorerows
        intro x hx
        rcases List.mem_cons.1 hx with rfl | hx
        · exact hkept
        · exact ih (fun y hy => htype y (List.mem_cons_of_mem h hy)) hmore hmorerows x hx

def columnsText (type : ValueType) : List Char :=
  "day,itemid,clock,value".toList ++ (if type = .log then ",source,severity,logeventid".toList else []) ++
    (if conf.disableNanoseconds then [] else ",ns".toList) ++
    (if conf.disableHostItemNames then [] else ",hostname, itemname".toList)

lemma columnsText_no_close (type : ValueType) : ∀ c ∈ columnsText conf type, (decide (c ≠ ')')) = true := by
  unfold columnsText
  cases conf.disableNanoseconds <;> cases conf.disableHostItemNames <;> cases type <;> decide

lemma readColumns_columnsText (type : ValueType) : readColumns (columnsText conf type) = columns conf type := by
  unfold columnsText columns
  cases conf.disableNanoseconds <;> cases conf.disableHostItemNames <;> cases type <;> decide

lemma headerText_eq (type : ValueType) :
    headerText conf type =
      "INSERT INTO ".toList ++ conf.table type ++ " (".toList ++ (columnsText conf type ++ ") VALUES ".toList) := by
  have hopen : " (day,itemid,clock,value".toList = " (".toList ++ "day,itemid,clock,value".toList := by decide
  unfold headerText columnsText
  rw [hopen]
  generalize "INSERT INTO ".toList = insert
  generalize " (".toList = opening
  generalize "day,itemid,clock,value".toList = common
  generalize ") VALUES ".toList = values
  simp only [List.append_assoc]

lemma isPrefixOf_append (head rest : List Char) : head.isPrefixOf (head ++ rest) = true := by
  simp

lemma readInsert_statement (type : ValueType) (tuples : List Char) :
    readInsert (conf.table type) (headerText conf type ++ tuples) =
      (readTuples (headerText conf type ++ tuples).length tuples).map fun t => (columns conf type, t) := by
  have hvalues : ") VALUES ".toList ++ tuples = ')' :: (" VALUES ".toList ++ tuples) := rfl
  have htake : (columnsText conf type ++ (") VALUES ".toList ++ tuples)).takeWhile (· ≠ ')') = columnsText conf type := by
    rw [List.takeWhile_append_of_pos (columnsText_no_close conf type), hvalues]
    simp
  generalize hlength : (headerText conf type ++ tuples).length = length
  have htext : headerText conf type ++ tuples = ("INSERT INTO ".toList ++ conf.table type ++ " (".toList) ++
      (columnsText conf type ++ (") VALUES ".toList ++ tuples)) := by
    rw [headerText_eq]
    simp only [List.append_assoc]
  unfold readInsert
  simp only [hlength]
  rw [htext]
  simp only [isPrefixOf_append, List.drop_left, htake, if_true, readColumns_columnsText]
  cases readTuples length tuples <;> rfl

lemma length_tuplesText (h : DcHistory D) (hs : List (DcHistory D)) :
    hs.length < (tuplesText F conf h hs).length := by
  have hflat : hs.length ≤ (hs.flatMap fun h => ',' :: tupleText F conf h).length := by
    induction hs with
    | nil => simp
    | cons next hs ih =>
        simp only [List.flatMap_cons, List.length_append, List.length_cons]
        omega
  obtain ⟨text, htext⟩ := tupleText_open (F := F) conf h []
  have hpos : 0 < (tupleText F conf h).length := by
    rw [← List.append_nil (tupleText F conf h), htext]
    simp
  rw [tuplesText, List.length_append]
  omega

lemma length_fields (h : DcHistory D) :
    (fields F conf h).length = (columns conf h.value.type).length := by
  unfold fields tailCells columns nsCells nameCells
  cases conf.disableNanoseconds <;> cases conf.disableHostItemNames <;> cases h.value <;> rfl

lemma statement_faithful_iff {conf : Conf} {type : ValueType} {records : List (DcHistory D)} (hne : records ≠ [])
    (htype : ∀ h ∈ records, h.value.type = type) :
    Faithful F conf type records (statement F conf type records) ↔ ∀ h ∈ records, Kept F h := by
  obtain ⟨h, hs, rfl⟩ := List.exists_cons_of_ne_nil hne
  have hinsert := readInsert_statement conf type (tuplesText F conf h hs)
  constructor
  · rintro ⟨tuples, hread, hrows, -⟩
    rw [statement, hinsert] at hread
    obtain ⟨tuples', htuples, heq⟩ := Option.map_eq_some_iff.1 hread
    simp only [Prod.mk.injEq, true_and] at heq
    subst heq
    exact kept_of_readTuples htype htuples hrows
  · intro hk
    refine ⟨(h :: hs).map (fields F conf), ?_, ?_, ?_⟩
    · rw [statement, hinsert, readTuples_of_kept hk]
      · rfl
      · rw [List.length_append]
        exact (length_tuplesText conf h hs).trans_le (Nat.le_add_left _ _)
    · rw [List.map_map]
      apply List.map_congr_left
      intro x hx
      have hkx := hk x hx
      rw [Function.comp_apply, ← htype x hx]
      exact (readRow_fields_iff hkx.2.sourcePlain).2 hkx
    · intro tuple htuple
      obtain ⟨x, hx, rfl⟩ := List.mem_map.1 htuple
      rw [length_fields, htype x hx]

end

section

variable {D : Type} {F : FloatFormat D} {conf : Conf}

structure Holds (F : FloatFormat D) (conf : Conf) (type : ValueType) (buffer : Buffer) (batch : Batch D) : Prop where
  text : buffer.text = statement F conf type batch.records
  num : buffer.num = batch.records.length
  lastflush : buffer.lastflush = batch.lastflush
  types : ∀ h ∈ batch.records, h.value.type = type

lemma statement_append (type : ValueType) (records : List (DcHistory D)) (h : DcHistory D) :
    statement F conf type (records ++ [h]) = statement F conf type records ++
      (if records.length = 0 then headerText conf type else ",".toList) ++ tupleText F conf h := by
  cases records with
  | nil => simp [statement, tuplesText]
  | cons first records =>
      have hcomma : ",".toList = [','] := rfl
      simp [statement, tuplesText, hcomma]

lemma Holds.add {buffer : Buffer} {batch : Batch D} {h : DcHistory D} (hb : Holds F conf h.value.type buffer batch) :
    Holds F conf h.value.type (buffer.add F conf h) { batch with records := batch.records ++ [h] } where
  text := by
    rw [statement_append, Buffer.add]
    simp only [hb.text, hb.num]
  num := by simp [Buffer.add, hb.num]
  lastflush := hb.lastflush
  types := by
    intro x hx
    rcases List.mem_append.1 hx with hx | hx
    · exact hb.types x hx
    · rw [List.mem_singleton.1 hx]

lemma accumulate_holds {buffers : ValueType → Buffer} {batches : ValueType → Batch D}
    (hb : ∀ t, Holds F conf t (buffers t) (batches t)) (h : DcHistory D) (t : ValueType) :
    Holds F conf t (accumulate F conf buffers h t) (Batch.accumulate conf batches h t) := by
  unfold accumulate Batch.accumulate
  split_ifs
  · exact hb t
  · by_cases ht : t = h.value.type
    · subst ht
      simpa using (hb _).add
    · simpa [ht] using hb t

lemma foldl_accumulate_holds {buffers : ValueType → Buffer} {batches : ValueType → Batch D}
    (hb : ∀ t, Holds F conf t (buffers t) (batches t)) (hist : List (DcHistory D)) (t : ValueType) :
    Holds F conf t (hist.foldl (accumulate F conf) buffers t) (hist.foldl (Batch.accumulate conf) batches t) := by
  induction hist generalizing buffers batches with
  | nil => exact hb t
  | cons h hist ih => exact ih fun t => accumulate_holds hb h t

def Sent (F : FloatFormat D) (conf : Conf) (sent : ValueType × List Char) (batch : ValueType × List (DcHistory D)) : Prop :=
  sent.1 = batch.1 ∧ (Faithful F conf batch.1 batch.2 sent.2 ↔ ∀ h ∈ batch.2, Kept F h)

lemma Holds.faithful_iff {type : ValueType} {buffer : Buffer} {batch : Batch D} (hb : Holds F conf type buffer batch)
    (hne : batch.records ≠ []) :
    Faithful F conf type batch.records buffer.text ↔ ∀ h ∈ batch.records, Kept F h := by
  rw [hb.text]
  exact statement_faithful_iff hne hb.types

lemma flushes_ne_nil {records : List (DcHistory D)} {lastflush now : ℤ} (h : flushes records.length lastflush now = true) :
    records ≠ [] := by
  rintro rfl
  simp [flushes, writeBatch] at h

lemma flushAll_holds {buffers : ValueType → Buffer} {batches : ValueType → Batch D}
    (hb : ∀ t, Holds F conf t (buffers t) (batches t)) (now : ValueType → ℤ) :
    List.Forall₂ (Sent F conf) (flushAll now buffers).1 (Batch.flushAll now batches).1 ∧
      ∀ t, Holds F conf t ((flushAll now buffers).2 t) ((Batch.flushAll now batches).2 t) := by
  have hflush : ∀ t, flushes (buffers t).num (buffers t).lastflush (now t) =
      flushes (batches t).records.length (batches t).lastflush (now t) := by
    intro t
    rw [(hb t).num, (hb t).lastflush]
  refine ⟨?_, ?_⟩
  · simp only [flushAll, Batch.flushAll, hflush]
    rw [List.forall₂_map_left_iff, List.forall₂_map_right_iff, List.forall₂_same]
    intro t ht
    have hdue := (List.mem_filter.1 ht).2
    exact ⟨rfl, (hb t).faithful_iff (flushes_ne_nil hdue)⟩
  · intro t
    simp only [flushAll, Batch.flushAll, hflush]
    split_ifs
    · exact ⟨rfl, rfl, rfl, by simp⟩
    · exact hb t

lemma runCalls_holds (F : FloatFormat D) (conf : Conf) (calls : List (Call D)) :
    List.Forall₂ (Sent F conf) (runCalls F conf calls).1 (Batch.runCalls conf calls).1 ∧
      ∀ t, Holds F conf t ((runCalls F conf calls).2 t) ((Batch.runCalls conf calls).2 t) := by
  induction calls using List.reverseRecOn with
  | nil => exact ⟨.nil, fun t => ⟨rfl, rfl, rfl, by simp [Batch.runCalls]⟩⟩
  | append_singleton calls call ih =>
      simp only [runCalls, Batch.runCalls, List.foldl_append, List.foldl_cons, List.foldl_nil] at ih ⊢
      have hacc := fun t => foldl_accumulate_holds ih.2 call.hist t
      exact ⟨List.rel_append ih.1 (flushAll_holds hacc call.now).1, (flushAll_holds hacc call.now).2⟩

theorem statements_faithful_iff (F : FloatFormat D) (conf : Conf) (calls : List (Call D)) :
    List.Forall₂
        (fun sent batch => sent.1 = batch.1 ∧ (Faithful F conf batch.1 batch.2 sent.2 ↔ ∀ h ∈ batch.2, Kept F h))
        (runCalls F conf calls).1 (Batch.runCalls conf calls).1 ∧
      ∀ t, ((Batch.runCalls conf calls).2 t).records ≠ [] →
        (Faithful F conf t ((Batch.runCalls conf calls).2 t).records ((runCalls F conf calls).2 t).text ↔
          ∀ h ∈ ((Batch.runCalls conf calls).2 t).records, Kept F h) := by
  obtain ⟨hsent, hholds⟩ := runCalls_holds F conf calls
  exact ⟨hsent, fun t hne => (hholds t).faithful_iff hne⟩

end

section

def wholeFormat : FloatFormat ℤ where
  print := decimal
  read := readDecimal
  print_ne_nil := decimal_ne_nil
  print_word := fun _ _ hc => separator_of_decimal hc

def glaberConf : Conf where
  dbname := "glaber".toList
  writeTypes := fun _ => true
  disableNanoseconds := false
  disableHostItemNames := false

def quotedSource : DcHistory ℤ where
  itemid := 10
  value := .log ⟨1, 2, some "it's".toList, "disk full".toList⟩
  sec := 100
  ns := 5
  flags := 0
  stateNormal := true
  hostName := some "web".toList
  itemKey := some "log[messages]".toList

theorem quoted_source_unfaithful :
    ((Batch.runCalls glaberConf [⟨fun _ => 0, [quotedSource]⟩]).2 .log).records = [quotedSource] ∧
      ¬ Faithful wholeFormat glaberConf .log [quotedSource]
        ((runCalls wholeFormat glaberConf [⟨fun _ => 0, [quotedSource]⟩]).2 .log).text := by
  refine ⟨rfl, ?_⟩
  intro h
  have hkept := (((runCalls_holds _ _ _).2 .log).faithful_iff (by decide)).1 h quotedSource List.mem_cons_self
  obtain ⟨-, -, source, hsource, hplain⟩ := hkept
  cases hsource
  revert hplain
  decide

def quotedMessage : DcHistory ℤ :=
  { quotedSource with value := .log ⟨1, 2, some "kernel".toList, "it's (a, b) \\".toList⟩ }

theorem quoted_message_faithful :
    Faithful wholeFormat glaberConf .log [quotedMessage]
      ((runCalls wholeFormat glaberConf [⟨fun _ => 0, [quotedMessage]⟩]).2 .log).text := by
  have hiff := (statements_faithful_iff wholeFormat glaberConf [⟨fun _ => 0, [quotedMessage]⟩]).2 .log (by decide)
  refine hiff.2 ?_
  intro h hh
  rw [List.mem_singleton.1 hh]
  exact ⟨by decide, by decide, "kernel".toList, rfl, by decide⟩

end

end Glaber.History.Clickhouse
