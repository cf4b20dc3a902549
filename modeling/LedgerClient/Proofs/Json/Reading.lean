import LedgerClient.Json.Reader
import LedgerClient.Proofs.Result
import LedgerClient.Value.Text
import Mathlib.Data.List.Induction

/-!
# What is read from JSON

A JSON text denotes absent values, truth values, numbers, texts, lists and dictionaries whose keys are
texts, and its integers are within the limit of digits. So everything that was read has a text. A text
that opens more lists than the limit of levels is given up as too deep, whatever follows.
-/

namespace LedgerClient.Json

/-- The values that a JSON text can denote. -/
inductive Denoted : Value → Prop where
  | null : Denoted .null
  | bool (b : Bool) : Denoted (.bool b)
  | int {n : Int} (h : n.natAbs < Integer.textBound) : Denoted (.int n)
  | float (x : Float) : Denoted (.float x)
  | text (s : String) : Denoted (.text s)
  | torn (t : Torn) : Denoted (.torn t)
  | list {items : List Value} (h : ∀ v ∈ items, Denoted v) : Denoted (.list items)
  | dict {entries : List (Value × Value)} (hkeys : ∀ e ∈ entries, ∃ k : Script, e.1 = k.toValue)
      (h : ∀ e ∈ entries, Denoted e.2) : Denoted (.dict entries)

theorem denoted_script (s : Script) : Denoted s.toValue := by
  cases s with
  | whole s => exact .text s
  | torn t => exact .torn t

/-! ## Every denoted value has a text -/

theorem exists_shownItems {items : List Value} (h : ∀ v ∈ items, ∃ s, v.shown true = .ok s) :
    ∃ parts, Value.shownItems items = .ok parts := by
  induction items with
  | nil => exact ⟨[], rfl⟩
  | cons v rest ih =>
    obtain ⟨part, hpart⟩ := h v List.mem_cons_self
    obtain ⟨parts, hparts⟩ := ih fun w hw => h w (List.mem_cons_of_mem _ hw)
    refine ⟨part :: parts, ?_⟩
    rw [Value.shownItems, hpart, hparts]
    rfl

theorem exists_shownEntries {entries : List (Value × Value)}
    (hkeys : ∀ e ∈ entries, ∃ s, e.1.shown true = .ok s)
    (h : ∀ e ∈ entries, ∃ s, e.2.shown true = .ok s) :
    ∃ parts, Value.shownEntries entries = .ok parts := by
  induction entries with
  | nil => exact ⟨[], rfl⟩
  | cons e rest ih =>
    obtain ⟨key, value⟩ := e
    obtain ⟨k, hk⟩ := hkeys (key, value) List.mem_cons_self
    obtain ⟨part, hpart⟩ := h (key, value) List.mem_cons_self
    obtain ⟨parts, hparts⟩ := ih (fun e he => hkeys e (List.mem_cons_of_mem _ he))
      fun e he => h e (List.mem_cons_of_mem _ he)
    refine ⟨(k ++ ": " ++ part) :: parts, ?_⟩
    rw [Value.shownEntries, show key.shown true = .ok k from hk,
      show value.shown true = .ok part from hpart, hparts]
    rfl

theorem Denoted.exists_shown {v : Value} (h : Denoted v) (full : Bool) :
    ∃ s, v.shown full = .ok s := by
  induction h generalizing full with
  | null => exact ⟨_, rfl⟩
  | bool b => exact ⟨_, rfl⟩
  | @int n hn =>
    refine ⟨Integer.decimal n, ?_⟩
    rw [Value.shown, Value.integerText_of_lt hn]
  | float x => exact ⟨_, rfl⟩
  | text s => exact ⟨_, rfl⟩
  | torn t => exact ⟨_, rfl⟩
  | list _ ih =>
    obtain ⟨parts, hparts⟩ := exists_shownItems fun v hv => ih v hv true
    refine ⟨"[" ++ Value.commaList parts ++ "]", ?_⟩
    rw [Value.shown, hparts]
    rfl
  | dict hkeys _ ih =>
    have hshown : ∀ k : Script, ∃ s, k.toValue.shown true = .ok s := fun k => by
      cases k <;> exact ⟨_, rfl⟩
    obtain ⟨parts, hparts⟩ := exists_shownEntries
      (fun e he => by
        obtain ⟨k, hk⟩ := hkeys e he
        rw [hk]
        exact hshown k)
      fun e he => ih e he true
    refine ⟨"\x7b" ++ Value.commaList parts ++ "\x7d", ?_⟩
    rw [Value.shown, hparts]
    rfl

theorem Denoted.exists_display {v : Value} (h : Denoted v) : ∃ s, v.display = .ok s :=
  h.exists_shown false

theorem Denoted.exists_script {v : Value} (h : Denoted v) : ∃ s, v.script = .ok s := by
  obtain ⟨s, hs⟩ := h.exists_display
  unfold Value.script
  split
  · exact ⟨_, rfl⟩
  · rw [hs]
    exact ⟨_, rfl⟩

theorem denoted_of_lookup {key : String} {entries : List (Value × Value)} {v : Value}
    (h : ∀ e ∈ entries, Denoted e.2) (hlookup : Value.lookup key entries = some v) : Denoted v := by
  induction entries with
  | nil => cases hlookup
  | cons e rest ih =>
    have hrest : Value.lookup key rest = some v → Denoted v :=
      ih fun e he => h e (List.mem_cons_of_mem _ he)
    unfold Value.lookup at hlookup
    split at hlookup
    · next hnil => cases hnil
    · next k w tail heq =>
      cases heq
      split at hlookup
      · cases hlookup
        exact h _ List.mem_cons_self
      · exact hrest hlookup
    · next heq =>
      cases heq
      exact hrest hlookup

/-! ## Numbers -/

theorem digitsValue_concat (s : List Char) (c : Char) :
    Floating.digitsValue (s ++ [c]) =
      10 * Floating.digitsValue s + (Text.asciiDigit? c).getD 0 := by
  rw [Floating.digitsValue, List.foldl_append]
  rfl

theorem asciiDigit?_getD_lt (c : Char) : (Text.asciiDigit? c).getD 0 < 10 := by
  cases hc : Text.asciiDigit? c with
  | none => decide
  | some d => exact Text.asciiDigit?_lt hc

/-- The induction is from the last digit. -/
theorem digitsValue_lt (s : List Char) : Floating.digitsValue s < 10 ^ s.length := by
  induction s using List.reverseRecOn with
  | nil => decide
  | append_singleton s c ih =>
    have hdigit := asciiDigit?_getD_lt c
    rw [digitsValue_concat, List.length_append, List.length_singleton, Nat.pow_succ]
    omega

theorem denoted_of_number {negative : Bool} {whole : List Char} {fraction : Option (List Char)}
    {power : Option Int} {v : Value} (h : number negative whole fraction power = some v) :
    Denoted v := by
  unfold number at h
  split at h
  · split at h
    · cases h
    · next hlen =>
      cases h
      refine .int ?_
      have hlt : Floating.digitsValue whole < Integer.textBound := by
        unfold Integer.textBound
        exact Nat.lt_of_lt_of_le (digitsValue_lt whole)
          (Nat.pow_le_pow_right (by decide) (Nat.le_of_not_lt hlen))
      cases negative with
      | true => simpa using hlt
      | false => simpa using hlt
  · cases h
    exact .float _

theorem denoted_of_readScalar {s rest : List Char} {v : Value} (h : readScalar s = some (v, rest)) :
    Denoted v := by
  have hwords : ∀ w ∈ words, Denoted w.2 := by
    intro w hw
    simp only [words, List.mem_cons, List.not_mem_nil, or_false] at hw
    rcases hw with rfl | rfl | rfl | rfl | rfl | rfl
    · exact .null
    · exact .bool true
    · exact .bool false
    · exact .float _
    · exact .float _
    · exact .float _
  unfold readScalar at h
  split at h
  · next r hr =>
    cases h
    obtain ⟨w, hw, hread⟩ := List.exists_of_findSome?_eq_some hr
    obtain ⟨after, -, heq⟩ := Option.map_eq_some_iff.mp hread
    cases heq
    exact hwords w hw
  · simp only [readNumber, Option.bind_eq_bind, Option.bind_eq_some_iff, Option.pure_def,
      Option.some.injEq, Prod.mk.injEq] at h
    obtain ⟨whole, -, w, hw, rfl, -⟩ := h
    exact denoted_of_number hw

/-! ## Values -/

/-- Entries whose keys are texts and whose values are denoted. -/
def DenotedEntries (entries : List (Value × Value)) : Prop :=
  (∀ e ∈ entries, ∃ k : Script, e.1 = k.toValue) ∧ ∀ e ∈ entries, Denoted e.2

theorem DenotedEntries.insertEntry {entries : List (Value × Value)} (h : DenotedEntries entries)
    (key : Script) {v : Value} (hv : Denoted v) :
    DenotedEntries (Value.insertEntry key.toValue v entries) := by
  induction entries with
  | nil =>
    refine ⟨fun e he => ?_, fun e he => ?_⟩
    · exact ⟨key, by rw [List.mem_singleton.mp he]⟩
    · rw [List.mem_singleton.mp he]
      exact hv
  | cons e rest ih =>
    obtain ⟨k, w⟩ := e
    have hhead := h.1 (k, w) List.mem_cons_self
    have hvalue := h.2 (k, w) List.mem_cons_self
    have hrest : DenotedEntries rest := ⟨fun e he => h.1 e (List.mem_cons_of_mem _ he),
      fun e he => h.2 e (List.mem_cons_of_mem _ he)⟩
    unfold Value.insertEntry
    split
    · exact ⟨List.forall_mem_cons.mpr ⟨hhead, hrest.1⟩, List.forall_mem_cons.mpr ⟨hv, hrest.2⟩⟩
    · obtain ⟨hkeys, hvalues⟩ := ih hrest
      exact ⟨List.forall_mem_cons.mpr ⟨hhead, hkeys⟩, List.forall_mem_cons.mpr ⟨hvalue, hvalues⟩⟩

theorem orMalformed_eq_ok {α : Type} {o : Option α} {a : α} : orMalformed o = .ok a ↔ o = some a := by
  cases o with
  | none => exact iff_of_false error_ne_ok fun h => by cases h
  | some b => rw [orMalformed, Except.ok.injEq, Option.some.injEq]

/-- What the readers give with some fuel, whatever levels are left. They call one another, so the
induction is on the fuel for all of them at once. -/
structure ReadsDenoted (fuel : Nat) : Prop where
  value : ∀ {levels s rest v}, readValue levels fuel s = .ok (v, rest) → Denoted v
  items : ∀ {levels s done rest items}, (∀ v ∈ done, Denoted v) →
    readItems levels fuel done s = .ok (items, rest) → ∀ v ∈ items, Denoted v
  entries : ∀ {levels s done rest entries}, DenotedEntries done →
    readEntries levels fuel done s = .ok (entries, rest) → DenotedEntries entries

theorem denoted_of_readValue_succ {fuel : Nat} (ih : ReadsDenoted fuel) {levels : Nat}
    {s rest : List Char} {v : Value} (h : readValue levels (fuel + 1) s = .ok (v, rest)) :
    Denoted v := by
  unfold readValue at h
  split at h
  · obtain ⟨⟨glyphs, after⟩, -, h⟩ := bind_eq_ok.mp h
    cases h
    exact denoted_script _
  · split at h
    · cases h
    · split at h
      · cases h
        exact .list (List.forall_mem_nil _)
      · obtain ⟨⟨items, after⟩, hitems, h⟩ := bind_eq_ok.mp h
        cases h
        exact .list (ih.items (List.forall_mem_nil _) hitems)
  · split at h
    · cases h
    · split at h
      · cases h
        exact .dict (List.forall_mem_nil _) (List.forall_mem_nil _)
      · obtain ⟨⟨entries, after⟩, hentries, h⟩ := bind_eq_ok.mp h
        cases h
        have hnone : DenotedEntries [] := ⟨List.forall_mem_nil _, List.forall_mem_nil _⟩
        obtain ⟨hkeys, hvalues⟩ := ih.entries hnone hentries
        exact .dict hkeys hvalues
  · exact denoted_of_readScalar (orMalformed_eq_ok.mp h)

theorem denoted_of_readItems_succ {fuel : Nat} (ih : ReadsDenoted fuel) {levels : Nat}
    {s rest : List Char} {done items : List Value} (hdone : ∀ v ∈ done, Denoted v)
    (h : readItems levels (fuel + 1) done s = .ok (items, rest)) : ∀ v ∈ items, Denoted v := by
  unfold readItems at h
  obtain ⟨⟨v, after⟩, hv, h⟩ := bind_eq_ok.mp h
  simp only at h
  have hall : ∀ w ∈ v :: done, Denoted w := List.forall_mem_cons.mpr ⟨ih.value hv, hdone⟩
  split at h
  · exact ih.items hall h
  · cases h
    exact fun w hw => hall w (List.mem_reverse.mp hw)
  · cases h

theorem denoted_of_readEntries_succ {fuel : Nat} (ih : ReadsDenoted fuel) {levels : Nat}
    {s rest : List Char} {done entries : List (Value × Value)} (hdone : DenotedEntries done)
    (h : readEntries levels (fuel + 1) done s = .ok (entries, rest)) : DenotedEntries entries := by
  unfold readEntries at h
  split at h
  · obtain ⟨⟨key, after⟩, -, h⟩ := bind_eq_ok.mp h
    simp only at h
    split at h
    · obtain ⟨⟨v, behind⟩, hv, h⟩ := bind_eq_ok.mp h
      have hall := hdone.insertEntry (Script.ofGlyphs key) (ih.value hv)
      simp only at h
      split at h
      · exact ih.entries hall h
      · cases h
        exact hall
      · cases h
    · cases h
  · cases h

theorem readsDenoted (fuel : Nat) : ReadsDenoted fuel := by
  induction fuel with
  | zero =>
    refine ⟨fun h => ?_, fun _ h => ?_, fun _ h => ?_⟩
    · cases h
    · cases h
    · cases h
  | succ fuel ih =>
    exact ⟨denoted_of_readValue_succ ih, denoted_of_readItems_succ ih,
      denoted_of_readEntries_succ ih⟩

theorem denoted_of_read {s : String} {v : Value} (h : Json.read s = .ok v) : Denoted v := by
  obtain ⟨⟨w, rest⟩, hread, h⟩ := bind_eq_ok.mp h
  simp only at h
  split at h
  · cases h
    exact (readsDenoted _).value hread
  · cases h

/-! ## Nesting -/

def brackets (n : Nat) : List Char := List.replicate n '['

/-- Each list takes a level, and the last one finds none. -/
theorem readValue_brackets {levels fuel : Nat} (hfuel : 2 * levels < fuel) (rest : List Char) :
    readValue levels fuel (brackets (levels + 1) ++ rest) = .error .tooDeep := by
  induction levels generalizing fuel with
  | zero =>
    obtain ⟨fuel, rfl⟩ := Nat.exists_eq_succ_of_ne_zero (Nat.ne_of_gt hfuel)
    rfl
  | succ levels ih =>
    obtain ⟨fuel, rfl⟩ := Nat.exists_eq_add_of_le' (show 2 ≤ fuel by omega)
    have hinner := ih (show 2 * levels < fuel by omega)
    show (readItems levels (fuel + 1) [] (brackets (levels + 1) ++ rest) >>=
      fun r => .ok (Value.list r.1, r.2)) = _
    rw [readItems, hinner]
    rfl

theorem read_brackets {n : Nat} (h : nestingLimit < n) (rest : List Char) :
    Json.read (String.ofList (brackets n ++ rest)) = .error .tooDeep := by
  obtain ⟨more, rfl⟩ := Nat.exists_eq_add_of_lt h
  have hsplit : brackets (nestingLimit + more + 1) ++ rest =
      brackets (nestingLimit + 1) ++ (brackets more ++ rest) := by
    rw [brackets, brackets, brackets, Nat.add_right_comm, ← List.replicate_append_replicate,
      List.append_assoc]
  rw [Json.read, readChars, String.toList_ofList, hsplit]
  have hlength : nestingLimit < (brackets (nestingLimit + 1) ++ (brackets more ++ rest)).length := by
    rw [List.length_append, brackets, List.length_replicate]
    omega
  have hstart : skipBlanks (brackets (nestingLimit + 1) ++ (brackets more ++ rest)) =
      brackets (nestingLimit + 1) ++ (brackets more ++ rest) := rfl
  rw [hstart, readValue_brackets (by omega)]
  rfl

end LedgerClient.Json
