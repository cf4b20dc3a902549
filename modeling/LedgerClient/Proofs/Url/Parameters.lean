import LedgerClient.Proofs.Result
import LedgerClient.Proofs.Url.Form

/-!
# Parameters of a request

An absent parameter is left out, and every other one stands in the query with the text of its value, in
the order in which it was given. There is a URL exactly when every present value has a text.
-/

namespace LedgerClient.Url

/-- The present parameters in their order, each with the text of its value. -/
inductive Tells : List (Script × Value) → List (Script × Script) → Prop where
  | nil : Tells [] []
  | absent {params : List (Script × Value)} {texts : List (Script × Script)} (name : Script)
      (h : Tells params texts) : Tells ((name, .null) :: params) texts
  | present {params : List (Script × Value)} {texts : List (Script × Script)} (name : Script) {v : Value}
      {s : Script} (hpresent : v.isNull = false) (htext : v.script = .ok s) (h : Tells params texts) :
      Tells ((name, v) :: params) ((name, s) :: texts)

theorem Tells.unique {params : List (Script × Value)} {texts others : List (Script × Script)}
    (h : Tells params texts) (h' : Tells params others) : texts = others := by
  induction h generalizing others with
  | nil =>
    cases h'
    rfl
  | absent name h ih =>
    cases h' with
    | absent _ h' => exact ih h'
    | present _ hpresent => cases hpresent
  | present name hpresent htext h ih =>
    cases h' with
    | absent => cases hpresent
    | present _ _ htext' h' =>
      obtain rfl := Except.ok.inj (htext.symm.trans htext')
      rw [ih h']

/-- It is enough that every present value has a text. -/
theorem exists_tells {params : List (Script × Value)}
    (h : ∀ p ∈ params, p.2.isNull = false → ∃ s, p.2.script = .ok s) : ∃ texts, Tells params texts := by
  induction params with
  | nil => exact ⟨[], .nil⟩
  | cons p params ih =>
    obtain ⟨name, v⟩ := p
    obtain ⟨hv, hrest⟩ := List.forall_mem_cons.mp h
    obtain ⟨texts, htexts⟩ := ih hrest
    cases hnull : v.isNull with
    | false =>
      obtain ⟨s, hs⟩ := hv hnull
      exact ⟨(name, s) :: texts, .present name hnull hs htexts⟩
    | true =>
      cases v with
      | null => exact ⟨texts, .absent name htexts⟩
      | _ => cases hnull

/-! ## Whole and torn texts -/

/-- Named texts without lone halves. -/
def wholes (pairs : List (String × String)) : List (Script × Script) :=
  pairs.map fun p => (.whole p.1, .whole p.2)

/-- A name or a text has a lone half. -/
def AnyTorn (texts : List (Script × Script)) : Prop :=
  ∃ p ∈ texts, p.1.isTorn = true ∨ p.2.isTorn = true

theorem wholes_injective {pairs others : List (String × String)} (h : wholes pairs = wholes others) :
    pairs = others := by
  refine (List.map_inj_right ?_).mp h
  rintro ⟨name, value⟩ ⟨name', value'⟩ heq
  cases heq
  rfl

theorem exists_wholes_or_anyTorn (texts : List (Script × Script)) :
    (∃ pairs, texts = wholes pairs) ∨ AnyTorn texts := by
  induction texts with
  | nil => exact .inl ⟨[], rfl⟩
  | cons p texts ih =>
    obtain ⟨name, value⟩ := p
    rcases ih with ⟨pairs, rfl⟩ | ⟨q, hq, htorn⟩
    · cases name with
      | torn t => exact .inr ⟨_, List.mem_cons_self, .inl rfl⟩
      | whole n =>
        cases value with
        | torn t => exact .inr ⟨_, List.mem_cons_self, .inr rfl⟩
        | whole s => exact .inl ⟨(n, s) :: pairs, rfl⟩
    · exact .inr ⟨q, List.mem_cons_of_mem _ hq, htorn⟩

theorem exists_wholes {texts : List (Script × Script)}
    (h : ∀ t ∈ texts, t.1.isTorn = false ∧ t.2.isTorn = false) : ∃ pairs, texts = wholes pairs := by
  rcases exists_wholes_or_anyTorn texts with hwholes | ⟨t, ht, hname | hvalue⟩
  · exact hwholes
  · rw [(h t ht).1] at hname
    cases hname
  · rw [(h t ht).2] at hvalue
    cases hvalue

theorem not_anyTorn_wholes (pairs : List (String × String)) : ¬AnyTorn (wholes pairs) := by
  rintro ⟨_, ht, htorn⟩
  obtain ⟨p, -, rfl⟩ := List.mem_map.mp ht
  rcases htorn with h | h <;> cases h

theorem tells_texts (pairs : List (String × String)) :
    Tells (pairs.map fun p => (.whole p.1, .text p.2)) (wholes pairs) := by
  induction pairs with
  | nil => exact .nil
  | cons p pairs ih => exact .present (.whole p.1) rfl rfl ih

/-! ## The query -/

/-- A parameter as an entry of a dictionary. -/
def entryOf (p : Script × Value) : Value × Value := (p.1.toValue, p.2)

/-- The dictionary of some parameters. -/
def mapping (params : List (Script × Value)) : Value := .dict (params.map entryOf)

theorem record_eq_mapping (params : List (String × Value)) :
    Value.record params = mapping (params.map fun p => (.whole p.1, p.2)) := by
  rw [Value.record, mapping, List.map_map]
  rfl

theorem presentValues_eq_ok_iff {params : List (Script × Value)} {found : List (Value × Script)} :
    presentValues (params.map entryOf) = .ok found ↔
      ∃ texts, Tells params texts ∧ found = texts.map fun p => (p.1.toValue, p.2) := by
  induction params generalizing found with
  | nil =>
    constructor
    · intro h
      cases h
      exact ⟨[], .nil, rfl⟩
    · rintro ⟨texts, htexts, rfl⟩
      cases htexts
      rfl
  | cons p params ih =>
    obtain ⟨name, v⟩ := p
    show presentValues ((name.toValue, v) :: params.map entryOf) = .ok found ↔ _
    unfold presentValues
    cases hnull : v.isNull with
    | true =>
      rw [if_pos rfl, ih]
      constructor
      · rintro ⟨texts, htexts, rfl⟩
        cases v with
        | null => exact ⟨texts, .absent name htexts, rfl⟩
        | _ => cases hnull
      · rintro ⟨texts, htexts, rfl⟩
        cases htexts with
        | absent _ hrest => exact ⟨texts, hrest, rfl⟩
        | present _ hpresent =>
          rw [hpresent] at hnull
          cases hnull
    | false =>
      rw [if_neg Bool.false_ne_true]
      simp only [bind_eq_ok, pure_eq_ok, ih]
      constructor
      · rintro ⟨s, hs, _, ⟨texts, htexts, rfl⟩, rfl⟩
        exact ⟨(name, s) :: texts, .present name hnull hs htexts, rfl⟩
      · rintro ⟨texts, htexts, rfl⟩
        cases htexts with
        | absent => cases hnull
        | present _ _ hs hrest => exact ⟨_, hs, _, ⟨_, hrest, rfl⟩, rfl⟩

theorem quotePairs_wholes (pairs : List (String × String)) :
    quotePairs ((wholes pairs).map fun p => (p.1.toValue, p.2)) =
      .ok (pairs.map fun p => (quoteText p.1, quoteText p.2)) := by
  induction pairs with
  | nil => rfl
  | cons p pairs ih =>
    show (quotePairs ((wholes pairs).map fun p : Script × Script => (p.1.toValue, p.2)) >>=
      fun others => _) = _
    rw [ih]
    rfl

theorem quoteKey_toValue (s : Script) : quoteKey s.toValue = quoteScript s := by
  cases s with
  | whole s => rfl
  | torn t => rfl

/-- A single lone half is enough. -/
theorem quotePairs_of_anyTorn {texts : List (Script × Script)} (h : AnyTorn texts) :
    quotePairs (texts.map fun p => (p.1.toValue, p.2)) = .error .unencodable := by
  induction texts with
  | nil =>
    obtain ⟨p, hp, -⟩ := h
    cases hp
  | cons p texts ih =>
    obtain ⟨name, value⟩ := p
    show (do
      let key ← quoteKey name.toValue
      let text ← quoteScript value
      let others ← quotePairs (texts.map fun p : Script × Script => (p.1.toValue, p.2))
      return (key, text) :: others) = _
    rw [quoteKey_toValue]
    cases name with
    | torn t => rfl
    | whole n =>
      cases value with
      | torn t => rfl
      | whole s =>
        obtain ⟨q, hq, htorn⟩ := h
        rcases List.mem_cons.mp hq with rfl | hq
        · rcases htorn with h | h <;> cases h
        · rw [ih ⟨q, hq, htorn⟩]
          rfl

/-- A URL with a query behind it, unless the query is empty. -/
def withQuery (url : String) (pairs : List (String × String)) : String :=
  if pairs = [] then url else url ++ "?" ++ String.ofList (query pairs)

theorem withQuery_nil (url : String) : withQuery url [] = url := rfl

theorem withQuery_of_ne_nil (url : String) {pairs : List (String × String)} (h : pairs ≠ []) :
    withQuery url pairs = url ++ "?" ++ String.ofList (query pairs) := if_neg h

theorem toList_withQuery (url : String) {pairs : List (String × String)} (h : pairs ≠ []) :
    (withQuery url pairs).toList = url.toList ++ '?' :: query pairs := by
  rw [withQuery_of_ne_nil url h]
  simp

theorem append_query (url : String) (pair : String × String) (pairs : List (String × String)) :
    url ++ String.ofList ('?' :: query (pair :: pairs)) = withQuery url (pair :: pairs) := by
  rw [← String.toList_inj, toList_withQuery url (List.cons_ne_nil pair pairs), String.toList_append,
    String.toList_ofList]

/-- Behind one address, other parameters make another URL. -/
theorem withQuery_injective {url : String} {pairs others : List (String × String)}
    (h : withQuery url pairs = withQuery url others) : pairs = others := by
  have hlist := congrArg String.toList h
  by_cases hpairs : pairs = []
  · by_cases hothers : others = []
    · rw [hpairs, hothers]
    · rw [hpairs, withQuery_nil, toList_withQuery url hothers] at hlist
      have hlength := congrArg List.length hlist
      simp at hlength
  · by_cases hothers : others = []
    · rw [hothers, withQuery_nil, toList_withQuery url hpairs] at hlist
      have hlength := congrArg List.length hlist
      simp at hlength
    · rw [toList_withQuery url hpairs, toList_withQuery url hothers] at hlist
      exact query_injective (List.cons.inj (List.append_cancel_left hlist)).2

/-- What the present parameters tell decides: with a lone half among it there is no URL. -/
theorem withParameters_of_tells (url : String) {params : List (Script × Value)}
    {texts : List (Script × Script)} (h : Tells params texts) :
    (∀ pairs, texts = wholes pairs → withParameters url (mapping params) = .ok (withQuery url pairs)) ∧
      (AnyTorn texts → withParameters url (mapping params) = .error .unencodable) := by
  have hquery : withParameters url (mapping params) = (do
      let present ← presentValues (params.map entryOf)
      let pairs ← quotePairs present
      if pairs.isEmpty then return url else return url ++ String.ofList ('?' :: joinPairs pairs)) := by
    cases params with
    | nil => rfl
    | cons p params => rfl
  rw [hquery, presentValues_eq_ok_iff.mpr ⟨texts, h, rfl⟩]
  constructor
  · rintro pairs rfl
    show (quotePairs _ >>= _) = _
    rw [quotePairs_wholes]
    cases pairs with
    | nil => rfl
    | cons p pairs => exact congrArg Except.ok (append_query url p pairs)
  · intro htorn
    show (quotePairs _ >>= _) = _
    rw [quotePairs_of_anyTorn htorn]
    rfl

end LedgerClient.Url
