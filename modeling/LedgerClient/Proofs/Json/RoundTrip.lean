import LedgerClient.Proofs.Json.Scalar
import LedgerClient.Proofs.Result
import LedgerClient.Proofs.Value.Entries

/-!
# JSON is read back

A value built from absent values, truth values, integers within the limit, texts without lone halves,
lists and records has a JSON text, and reading that text gives the value unless it is nested too deep. The
invariant of the induction is that a written value begins with no blank and no closing bracket, and that
the reader takes exactly its characters whenever what follows can end a value; the length of the text is
fuel enough.
-/

namespace LedgerClient.Json

/-- The values of at most so many levels that can be written and read without loss. -/
inductive Plain : Nat → Value → Prop where
  | null {levels : Nat} : Plain levels .null
  | bool {levels : Nat} (b : Bool) : Plain levels (.bool b)
  | int {levels : Nat} {n : Int} (h : n.natAbs < Integer.textBound) : Plain levels (.int n)
  | text {levels : Nat} (s : String) : Plain levels (.text s)
  | list {levels : Nat} {items : List Value} (h : ∀ v ∈ items, Plain levels v) :
      Plain (levels + 1) (.list items)
  | record {levels : Nat} {fields : List (String × Value)} (hnames : (fields.map Prod.fst).Nodup)
      (h : ∀ e ∈ fields, Plain levels e.2) : Plain (levels + 1) (Value.record fields)

variable {levels room : Nat}

/-- Neither a blank nor the end of a list. -/
def Starts : List Char → Prop
  | [] => False
  | c :: _ => isBlank c = false ∧ c ≠ ']'

structure ReadsBack (levels : Nat) (v : Value) (s : List Char) : Prop where
  starts : Starts s
  read : ∀ (room fuel : Nat) (rest : List Char), levels ≤ room → s.length ≤ fuel → Ends rest →
    readValue room fuel (s ++ rest) = .ok (v, rest)

theorem Starts.append {s : List Char} (h : Starts s) (rest : List Char) : Starts (s ++ rest) := by
  cases s with
  | nil => exact h.elim
  | cons c s => exact h

theorem skipBlanks_of_starts {s : List Char} (h : Starts s) : skipBlanks s = s := by
  cases s with
  | nil => exact h.elim
  | cons c s => exact List.dropWhile_cons_of_neg (by rw [h.1]; decide)

theorem ends_comma (rest : List Char) : Ends (',' :: rest) := .inl rfl

theorem ends_bracket (rest : List Char) : Ends (']' :: rest) := .inr (.inl rfl)

theorem ends_brace (rest : List Char) : Ends ('\x7d' :: rest) := .inr (.inr rfl)

/-- The parts of a list or record with commas between them. -/
def joined (parts : List (List Char)) : List Char := [','].intercalate parts

theorem joined_singleton (part : List Char) : joined [part] = part := List.intercalate_singleton

theorem joined_cons_cons (part next : List Char) (parts : List (List Char)) :
    joined (part :: next :: parts) = part ++ ',' :: joined (next :: parts) := by
  rw [joined, joined, List.intercalate_cons_cons, List.append_assoc]
  rfl

theorem starts_joined {part : List Char} (h : Starts part) (parts : List (List Char)) :
    Starts (joined (part :: parts)) := by
  cases parts with
  | nil =>
    rw [joined_singleton]
    exact h
  | cons next parts =>
    rw [joined_cons_cons]
    exact h.append _

/-! ## Lists -/

/-- One element is taken, and the character behind it decides. -/
theorem readItems_cons {v : Value} {s : List Char} (h : ReadsBack levels v s) (hroom : levels ≤ room)
    {fuel : Nat} (hfuel : s.length ≤ fuel) (done : List Value) {rest : List Char} (hrest : Ends rest) :
    readItems room (fuel + 1) done (s ++ rest) =
      match skipBlanks rest with
      | ',' :: more => readItems room fuel (v :: done) (skipBlanks more)
      | ']' :: after => .ok ((v :: done).reverse, after)
      | _ => .error .malformed := by
  rw [readItems, h.read room fuel rest hroom hfuel hrest]
  rfl

theorem readItems_joined {items : List Value} {parts : List (List Char)}
    (h : List.Forall₂ (ReadsBack levels) items parts) (hne : parts ≠ []) (hroom : levels ≤ room)
    {fuel : Nat} (hfuel : (joined parts).length < fuel) (done : List Value) (rest : List Char) :
    readItems room fuel done (joined parts ++ ']' :: rest) = .ok (done.reverse ++ items, rest) := by
  induction h generalizing fuel done with
  | nil => exact absurd rfl hne
  | @cons v s items parts hv htail ih =>
    obtain ⟨fuel, rfl⟩ := Nat.exists_eq_succ_of_ne_zero (Nat.ne_of_gt (Nat.zero_lt_of_lt hfuel))
    cases htail with
    | nil =>
      rw [joined_singleton] at hfuel ⊢
      rw [readItems_cons hv hroom (Nat.le_of_lt_succ hfuel) done (ends_bracket rest)]
      show Except.ok ((v :: done).reverse, rest) = _
      rw [List.reverse_cons]
    | @cons w t items parts hw htail =>
      rw [joined_cons_cons, List.length_append, List.length_cons] at hfuel
      rw [joined_cons_cons, List.append_assoc, List.cons_append,
        readItems_cons hv hroom (show s.length ≤ fuel by omega) done (ends_comma _)]
      show readItems room fuel (v :: done) (skipBlanks (joined (t :: parts) ++ ']' :: rest)) = _
      rw [skipBlanks_of_starts ((starts_joined hw.starts parts).append _),
        ih (List.cons_ne_nil t parts) (by omega) (v :: done), List.reverse_cons, List.append_assoc]
      rfl

/-- What every element has, the list has. -/
theorem exists_writeItems {items : List Value}
    (h : ∀ v ∈ items, ∃ text, write v = .ok text ∧ ReadsBack levels v text.toList) :
    ∃ parts, writeItems items = .ok parts ∧
      List.Forall₂ (ReadsBack levels) items (parts.map String.toList) := by
  induction items with
  | nil => exact ⟨[], rfl, .nil⟩
  | cons v items ih =>
    obtain ⟨text, htext, hread⟩ := h v List.mem_cons_self
    obtain ⟨parts, hparts, hall⟩ := ih fun w hw => h w (List.mem_cons_of_mem v hw)
    refine ⟨text :: parts, ?_, .cons hread hall⟩
    rw [writeItems, htext, hparts]
    rfl

theorem readValue_bracket (room fuel : Nat) {rest : List Char} (h : Starts rest) :
    readValue (room + 1) (fuel + 1) ('[' :: rest) =
      (readItems room fuel [] rest).bind fun r => .ok (.list r.1, r.2) := by
  cases rest with
  | nil => exact h.elim
  | cons c rest =>
    rw [readValue]
    simp only [skipBlanks_of_starts h]
    split
    · next heq => exact absurd (List.cons.inj heq).1 h.2
    · rfl

theorem readsBack_list {items : List Value} {parts : List (List Char)}
    (h : List.Forall₂ (ReadsBack levels) items parts) :
    ReadsBack (levels + 1) (.list items) ('[' :: (joined parts ++ [']'])) := by
  refine ⟨⟨by decide, by decide⟩, fun room fuel rest hroom hfuel hrest => ?_⟩
  rw [List.length_cons, List.length_append, List.length_singleton] at hfuel
  obtain ⟨fuel, rfl⟩ := Nat.exists_eq_succ_of_ne_zero (show fuel ≠ 0 by omega)
  obtain ⟨room, rfl⟩ := Nat.exists_eq_succ_of_ne_zero (show room ≠ 0 by omega)
  cases h with
  | nil => rfl
  | @cons v s items parts hv htail =>
    have hstarts := (starts_joined hv.starts parts).append (']' :: rest)
    have hitems := readItems_joined (.cons hv htail) (List.cons_ne_nil s parts)
      (Nat.le_of_succ_le_succ hroom) (show (joined (s :: parts)).length < fuel by omega) [] rest
    rw [List.cons_append, List.append_assoc, List.singleton_append, readValue_bracket room fuel hstarts,
      hitems]
    rfl

/-! ## Records -/

def entriesOf (fields : List (String × Value)) : List (Value × Value) :=
  fields.map fun (name, v) => (.text name, v)

def fieldChars (name : String) (s : List Char) : List Char := stringChars name.toList ++ ':' :: s

/-- A quoted name, a colon and a value that is read back. -/
def FieldReadsBack (levels : Nat) (field : String × Value) (part : List Char) : Prop :=
  ∃ s, part = fieldChars field.1 s ∧ ReadsBack levels field.2 s

theorem starts_fieldChars (name : String) (s : List Char) : Starts (fieldChars name s) :=
  ⟨by decide, by decide⟩

/-- A new name goes to the end. -/
theorem insertEntry_entriesOf {name : String} (v : Value) {fields : List (String × Value)}
    (h : name ∉ fields.map Prod.fst) :
    Value.insertEntry (.text name) v (entriesOf fields) = entriesOf (fields ++ [(name, v)]) := by
  induction fields with
  | nil => rfl
  | cons field fields ih =>
    rw [List.map_cons, List.mem_cons, not_or] at h
    have hne : Value.sameKey (.text field.1) (.text name) = false := by
      rw [Value.sameKey_text]
      exact decide_eq_false fun heq => h.1 heq.symm
    show (if Value.sameKey (.text field.1) (.text name) = true then _ else
      (Value.text field.1, field.2) :: Value.insertEntry (.text name) v (entriesOf fields)) = _
    rw [hne, if_neg Bool.false_ne_true, ih h.2]
    rfl

theorem readEntries_cons {name : String} {v : Value} {s : List Char} (h : ReadsBack levels v s)
    (hroom : levels ≤ room) {fuel : Nat} (hfuel : s.length ≤ fuel) {done : List (String × Value)}
    (hname : name ∉ done.map Prod.fst) {rest : List Char} (hrest : Ends rest) :
    readEntries room (fuel + 1) (entriesOf done) (fieldChars name s ++ rest) =
      match skipBlanks rest with
      | ',' :: more => readEntries room fuel (entriesOf (done ++ [(name, v)])) (skipBlanks more)
      | '\x7d' :: after => .ok (entriesOf (done ++ [(name, v)]), after)
      | _ => .error .malformed := by
  have hquoted := readString_stringChars name.toList (':' :: (s ++ rest))
  have hvalue : readValue room fuel (skipBlanks (s ++ rest)) = .ok (v, rest) := by
    rw [skipBlanks_of_starts (h.starts.append rest), h.read room fuel rest hroom hfuel hrest]
  have hshape : fieldChars name s ++ rest =
      '"' :: (name.toList.flatMap escapeChar ++ '"' :: ':' :: (s ++ rest)) := by
    simp only [fieldChars, stringChars, List.cons_append, List.append_assoc, List.nil_append]
  rw [hshape, readEntries]
  simp only [hquoted]
  show ((readValue room fuel (skipBlanks (s ++ rest))).bind _) = _
  have hentries : Value.insertEntry (Script.ofGlyphs (name.toList.map .char)).toValue v
      (entriesOf done) = entriesOf (done ++ [(name, v)]) := by
    rw [Script.ofGlyphs_chars, String.ofList_toList]
    exact insertEntry_entriesOf v hname
  rw [hvalue]
  exact congrArg (fun entries => match skipBlanks rest with
    | ',' :: more => readEntries room fuel entries (skipBlanks more)
    | '\x7d' :: after => .ok (entries, after)
    | _ => .error .malformed) hentries

theorem readEntries_joined {fields : List (String × Value)} {parts : List (List Char)}
    (h : List.Forall₂ (FieldReadsBack levels) fields parts) (hne : parts ≠ []) (hroom : levels ≤ room)
    {fuel : Nat} (hfuel : (joined parts).length < fuel) (done : List (String × Value))
    (hnames : ((done ++ fields).map Prod.fst).Nodup) (rest : List Char) :
    readEntries room fuel (entriesOf done) (joined parts ++ '\x7d' :: rest) =
      .ok (entriesOf (done ++ fields), rest) := by
  induction h generalizing fuel done with
  | nil => exact absurd rfl hne
  | @cons field part fields parts hfield htail ih =>
    obtain ⟨fuel, rfl⟩ := Nat.exists_eq_succ_of_ne_zero (Nat.ne_of_gt (Nat.zero_lt_of_lt hfuel))
    obtain ⟨name, v⟩ := field
    obtain ⟨s, hpart, hv⟩ := hfield
    obtain rfl : part = fieldChars name s := hpart
    have hlen : s.length < (fieldChars name s).length := by
      rw [fieldChars, List.length_append, List.length_cons]
      omega
    have hnew : name ∉ done.map Prod.fst := by
      rw [List.map_append, List.nodup_append] at hnames
      exact fun hmem => hnames.2.2 name hmem name List.mem_cons_self rfl
    rw [List.append_cons] at hnames
    cases htail with
    | nil =>
      rw [joined_singleton] at hfuel ⊢
      rw [readEntries_cons hv hroom (show s.length ≤ fuel by omega) hnew (ends_brace rest)]
      rfl
    | @cons next t fields parts hnext htail =>
      rw [joined_cons_cons, List.length_append, List.length_cons] at hfuel
      rw [joined_cons_cons, List.append_assoc, List.cons_append,
        readEntries_cons hv hroom (show s.length ≤ fuel by omega) hnew (ends_comma _)]
      obtain ⟨u, rfl, -⟩ := id hnext
      have hstarts := (starts_joined (starts_fieldChars next.1 u) parts).append ('\x7d' :: rest)
      show readEntries room fuel (entriesOf (done ++ [(name, v)]))
        (skipBlanks (joined (fieldChars next.1 u :: parts) ++ '\x7d' :: rest)) = _
      rw [skipBlanks_of_starts hstarts, ih (List.cons_ne_nil _ parts) (by omega) _ hnames,
        ← List.append_cons]

theorem exists_writeEntries {fields : List (String × Value)}
    (h : ∀ e ∈ fields, ∃ text, write e.2 = .ok text ∧ ReadsBack levels e.2 text.toList) :
    ∃ parts, writeEntries (entriesOf fields) = .ok parts ∧
      List.Forall₂ (FieldReadsBack levels) fields (parts.map String.toList) := by
  induction fields with
  | nil => exact ⟨[], rfl, .nil⟩
  | cons field fields ih =>
    obtain ⟨name, v⟩ := field
    obtain ⟨text, htext, hread⟩ := h (name, v) List.mem_cons_self
    obtain ⟨parts, hparts, hall⟩ := ih fun e he => h e (List.mem_cons_of_mem _ he)
    refine ⟨(stringText name ++ ":" ++ text) :: parts, ?_, .cons ⟨text.toList, ?_, hread⟩ hall⟩
    · show (do
        let key ← keyText (.text name)
        let value ← write v
        let others ← writeEntries (entriesOf fields)
        return (stringText key ++ ":" ++ value) :: others) = _
      rw [htext, hparts]
      rfl
    · rw [String.toList_append, String.toList_append, stringText, String.toList_ofList, fieldChars,
        List.append_assoc]
      rfl

theorem readValue_brace (room fuel : Nat) (rest : List Char) :
    readValue (room + 1) (fuel + 1) ('\x7b' :: '"' :: rest) =
      (readEntries room fuel [] ('"' :: rest)).bind fun r => .ok (.dict r.1, r.2) := by
  rw [readValue]
  rfl

theorem readsBack_record {fields : List (String × Value)} {parts : List (List Char)}
    (h : List.Forall₂ (FieldReadsBack levels) fields parts) (hnames : (fields.map Prod.fst).Nodup) :
    ReadsBack (levels + 1) (Value.record fields) ('\x7b' :: (joined parts ++ ['\x7d'])) := by
  refine ⟨⟨by decide, by decide⟩, fun room fuel rest hroom hfuel hrest => ?_⟩
  rw [List.length_cons, List.length_append, List.length_singleton] at hfuel
  obtain ⟨fuel, rfl⟩ := Nat.exists_eq_succ_of_ne_zero (show fuel ≠ 0 by omega)
  obtain ⟨room, rfl⟩ := Nat.exists_eq_succ_of_ne_zero (show room ≠ 0 by omega)
  cases h with
  | nil => rfl
  | @cons field part fields parts hfield htail =>
    have hentries := readEntries_joined (.cons hfield htail) (List.cons_ne_nil part parts)
      (Nat.le_of_succ_le_succ hroom) (show (joined (part :: parts)).length < fuel by omega) [] hnames rest
    obtain ⟨s, rfl, -⟩ := hfield
    have hquote : ∃ more, joined (fieldChars field.1 s :: parts) ++ '\x7d' :: rest = '"' :: more := by
      cases parts with
      | nil => exact ⟨_, by rw [joined_singleton]; rfl⟩
      | cons next parts => exact ⟨_, by rw [joined_cons_cons]; rfl⟩
    obtain ⟨more, hmore⟩ := hquote
    rw [List.cons_append, List.append_assoc, List.singleton_append, hmore, readValue_brace,
      ← hmore]
    rw [show ([] : List (Value × Value)) = entriesOf [] from rfl, hentries]
    rfl

/-! ## Values -/

theorem readsBack_scalar {v : Value} {s : List Char} (hstarts : Starts s)
    (hscalar : ∀ room fuel rest, Ends rest → readValue room (fuel + 1) (s ++ rest) = .ok (v, rest)) :
    ReadsBack levels v s := by
  refine ⟨hstarts, fun room fuel rest _ hfuel hrest => ?_⟩
  cases s with
  | nil => exact hstarts.elim
  | cons c s =>
    obtain ⟨fuel, rfl⟩ := Nat.exists_eq_succ_of_ne_zero (Nat.ne_of_gt (Nat.zero_lt_of_lt hfuel))
    exact hscalar room fuel rest hrest

theorem readsBack_text (s : String) : ReadsBack levels (.text s) (stringChars s.toList) := by
  refine readsBack_scalar ⟨by decide, by decide⟩ fun room fuel rest _ => ?_
  have hquoted := readString_stringChars s.toList rest
  have hshape : stringChars s.toList ++ rest =
      '"' :: (s.toList.flatMap escapeChar ++ '"' :: rest) := by
    simp only [stringChars, List.cons_append, List.append_assoc, List.nil_append]
  rw [hshape, readValue]
  simp only [hquoted]
  show Except.ok ((Script.ofGlyphs (s.toList.map .char)).toValue, rest) = _
  rw [Script.ofGlyphs_chars, String.ofList_toList]
  rfl

theorem readValue_of_scalar {c : Char} (hquote : c ≠ '"') (hlist : c ≠ '[') (hrecord : c ≠ '\x7b')
    (room fuel : Nat) (s : List Char) :
    readValue room (fuel + 1) (c :: s) = orMalformed (readScalar (c :: s)) := by
  rw [readValue]
  · intro rest h
    exact hquote (List.cons.inj h).1
  · intro rest h
    exact hlist (List.cons.inj h).1
  · intro rest h
    exact hrecord (List.cons.inj h).1

/-- A numeral is left to the reader of scalars. -/
theorem readValue_decimal (n : Int) (room fuel : Nat) (rest : List Char) :
    Starts (Integer.decimal n).toList ∧
      readValue room (fuel + 1) ((Integer.decimal n).toList ++ rest) =
        orMalformed (readScalar ((Integer.decimal n).toList ++ rest)) := by
  obtain ⟨ds, hds, hall, -, hne, -⟩ := Integer.exists_digits (by decide : 1 < 10) n.natAbs
  obtain ⟨d, es, rfl⟩ := List.exists_cons_of_ne_nil hne
  have hd := hall d List.mem_cons_self
  have hdigits : ∀ d < 10, isBlank (Nat.digitChar d) = false ∧ Nat.digitChar d ≠ ']' ∧
      Nat.digitChar d ≠ '"' ∧ Nat.digitChar d ≠ '[' ∧ Nat.digitChar d ≠ '\x7b' := by decide
  obtain ⟨hblank, hend, hquote, hlist, hrecord⟩ := hdigits d hd
  rw [Integer.decimal, String.toList_ofList, Integer.decimalChars, hds]
  by_cases hneg : n < 0
  · rw [decide_eq_true hneg]
    exact ⟨⟨by decide, by decide⟩, rfl⟩
  · rw [decide_eq_false hneg]
    exact ⟨⟨hblank, hend⟩, readValue_of_scalar hquote hlist hrecord room fuel _⟩

theorem exists_write {v : Value} (h : Plain levels v) :
    ∃ text, write v = .ok text ∧ ReadsBack levels v text.toList := by
  induction h with
  | null =>
    exact ⟨"null", rfl, readsBack_scalar ⟨by decide, by decide⟩ fun _ _ _ _ => rfl⟩
  | bool b =>
    cases b with
    | false => exact ⟨"false", rfl, readsBack_scalar ⟨by decide, by decide⟩ fun _ _ _ _ => rfl⟩
    | true => exact ⟨"true", rfl, readsBack_scalar ⟨by decide, by decide⟩ fun _ _ _ _ => rfl⟩
  | @int _ n hn =>
    refine ⟨Integer.decimal n, ?_, readsBack_scalar (readValue_decimal n 0 0 []).1 ?_⟩
    · rw [write, Value.integerText_of_lt hn]
    · intro room fuel rest hrest
      rw [(readValue_decimal n room fuel rest).2, readScalar_decimal hn hrest]
      rfl
  | text s =>
    refine ⟨stringText s, rfl, ?_⟩
    rw [stringText, String.toList_ofList]
    exact readsBack_text s
  | @list _ items _ ih =>
    obtain ⟨parts, hparts, hall⟩ := exists_writeItems ih
    refine ⟨"[" ++ ",".intercalate parts ++ "]", ?_, ?_⟩
    · rw [write, hparts]
      rfl
    · rw [String.toList_append, String.toList_append, String.toList_intercalate]
      exact readsBack_list hall
  | @record _ fields hnames _ ih =>
    obtain ⟨parts, hparts, hall⟩ := exists_writeEntries ih
    refine ⟨"\x7b" ++ ",".intercalate parts ++ "\x7d", ?_, ?_⟩
    · show (do
        let parts ← writeEntries (entriesOf fields)
        return "\x7b" ++ ",".intercalate parts ++ "\x7d") = _
      rw [hparts]
      rfl
    · rw [String.toList_append, String.toList_append, String.toList_intercalate]
      exact readsBack_record hall hnames

/-- What is written is read back as a whole text, unless it is nested too deep. -/
theorem read_of_write {v : Value} (h : Plain levels v) (hlevels : levels ≤ nestingLimit) {text : String}
    (hwrite : write v = .ok text) : Json.read text = .ok v := by
  obtain ⟨text', hwrite', hread⟩ := exists_write h
  obtain rfl : text = text' := Except.ok.inj (hwrite.symm.trans hwrite')
  have hvalue := hread.read nestingLimit (2 * text.toList.length + 2) [] hlevels (by omega) trivial
  rw [List.append_nil] at hvalue
  rw [Json.read, readChars, skipBlanks_of_starts hread.starts, hvalue]
  rfl

theorem anyTorn_eq_false {items : List Value} (h : ∀ v ∈ items, holdsTorn v = false) :
    anyTorn items = false := by
  induction items with
  | nil => rfl
  | cons v items ih =>
    rw [anyTorn, h v List.mem_cons_self, Bool.false_or]
    exact ih fun w hw => h w (List.mem_cons_of_mem v hw)

theorem anyEntryTorn_entriesOf {fields : List (String × Value)}
    (h : ∀ e ∈ fields, holdsTorn e.2 = false) : anyEntryTorn (entriesOf fields) = false := by
  induction fields with
  | nil => rfl
  | cons field fields ih =>
    show (false || holdsTorn field.2 || anyEntryTorn (entriesOf fields)) = false
    rw [h field List.mem_cons_self]
    exact ih fun e he => h e (List.mem_cons_of_mem field he)

/-- No lone half is among what is written. -/
theorem holdsTorn_of_plain {v : Value} (h : Plain levels v) : holdsTorn v = false := by
  induction h with
  | list _ ih => exact anyTorn_eq_false ih
  | record _ _ ih => exact anyEntryTorn_entriesOf ih
  | _ => rfl

/-- A record whose last value cannot be written cannot be written. -/
theorem write_record_error {fields : List (String × Value)} (h : ∀ e ∈ fields, Plain levels e.2)
    (name : String) {v : Value} {fault : Fault} (hv : write v = .error fault) :
    write (Value.record (fields ++ [(name, v)])) = .error fault := by
  have hentries : writeEntries (entriesOf (fields ++ [(name, v)])) = .error fault := by
    induction fields with
    | nil =>
      show (do let value ← write v; _) = _
      rw [hv]
      rfl
    | cons field fields ih =>
      obtain ⟨text, htext, -⟩ := exists_write (h field List.mem_cons_self)
      have hothers := ih fun e he => h e (List.mem_cons_of_mem field he)
      show (do
        let key ← keyText (.text field.1)
        let value ← write field.2
        let others ← writeEntries (entriesOf (fields ++ [(name, v)]))
        return (stringText key ++ ":" ++ value) :: others) = _
      rw [htext, hothers]
      rfl
  show (do let parts ← writeEntries (entriesOf (fields ++ [(name, v)])); return _) = _
  rw [hentries]
  rfl

end LedgerClient.Json
