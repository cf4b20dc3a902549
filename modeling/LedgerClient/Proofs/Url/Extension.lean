import LedgerClient.Proofs.Url.Split

/-!
# A path behind an address

Text that is put behind an address of the web belongs to its last part: to the fragment where there is one,
else to the query, else to the path. Scheme and authority stay when the text begins with a slash. Tabs and
line ends do not count in it.
-/

namespace LedgerClient.Url

/-- Neither a tab nor a line end. -/
def counts (c : Char) : Bool := c != '\t' && c != '\r' && c != '\n'

/-- A text without the tabs and line ends in it. -/
def clean (s : String) : String := String.ofList (s.toList.filter counts)

theorem clean_append (s t : String) : clean (s ++ t) = clean s ++ clean t := by
  unfold clean
  rw [String.toList_append, List.filter_append, String.ofList_append]

theorem clean_of_counts {s : String} (h : ∀ c ∈ s.toList, counts c = true) : clean s = s := by
  unfold clean
  rw [List.filter_eq_self.mpr h, String.ofList_toList]

namespace Parts

/-- The parts of an address with a text behind it. -/
def extend (p : Parts) (tail : String) : Parts :=
  match p.fragment, p.query with
  | some f, _ => { p with fragment := some (f ++ tail) }
  | none, some q => { p with query := some (q ++ tail) }
  | none, none => { p with path := p.path ++ tail }

/-- An address whose last part is its path. -/
def EndsInPath (p : Parts) : Prop := p.query = none ∧ p.fragment = none

variable (p : Parts) (tail : String)

@[simp] theorem extend_scheme : (p.extend tail).scheme = p.scheme := by
  unfold extend
  split <;> rfl

@[simp] theorem extend_authority : (p.extend tail).authority = p.authority := by
  unfold extend
  split <;> rfl

@[simp] theorem isWeb_extend : (p.extend tail).isWeb = p.isWeb := by
  rw [isWeb, extend_scheme, extend_authority, isWeb]

variable {p}

theorem extend_empty : p.extend "" = p := by
  obtain ⟨scheme, authority, path, query, fragment⟩ := p
  unfold extend
  cases fragment <;> cases query <;> simp

theorem extend_of_endsInPath (h : p.EndsInPath) : p.extend tail = { p with path := p.path ++ tail } := by
  unfold extend
  rw [h.1, h.2]

theorem endsInPath_extend : (p.extend tail).EndsInPath ↔ p.EndsInPath := by
  unfold EndsInPath extend
  split
  · next hfragment => simp [hfragment]
  · next hquery => simp [hquery]
  · next hfragment hquery => simp [hfragment, hquery]

/-- Behind a path there is a fragment or else a query, and that one takes the text. -/
theorem extend_of_not (h : ¬p.EndsInPath) :
    (∃ f, ∀ tail, p.extend tail = { p with fragment := some (f ++ tail) }) ∨
      p.fragment = none ∧ ∃ q, ∀ tail, p.extend tail = { p with query := some (q ++ tail) } := by
  unfold extend
  cases hfragment : p.fragment with
  | some f => exact .inl ⟨f, fun _ => rfl⟩
  | none =>
    cases hquery : p.query with
    | some q => exact .inr ⟨rfl, q, fun _ => rfl⟩
    | none => exact absurd ⟨hquery, hfragment⟩ h

end Parts

/-! ## Part by part -/

theorem tidy_append_of_mem {s : List Char} {x : Char} (hx : x ∈ s) (hcode : 32 < x.toNat) (t : List Char) :
    tidy (s ++ t) = tidy s ++ t.filter counts := by
  have hne : (s.dropWhile fun c => decide (c.toNat ≤ 32)) ≠ [] := by
    intro hnil
    have hblank := of_decide_eq_true (List.dropWhile_eq_nil_iff.mp hnil x hx)
    omega
  unfold tidy
  rw [List.dropWhile_append, if_neg (by simpa using hne), List.filter_append]
  rfl

theorem splitAuthority_slash (rest t : List Char) :
    splitAuthority ('/' :: '/' :: (rest ++ '/' :: t)) =
      ((splitAuthority ('/' :: '/' :: rest)).1, (splitAuthority ('/' :: '/' :: rest)).2 ++ '/' :: t) := by
  simp only [splitAuthority]
  rw [takeWhile_append_stop (by decide), dropWhile_append_stop (by decide)]

theorem authority_slashes (rest : List Char) {t : List Char} (h : ∀ c ∈ t, c = '/') :
    (splitAuthority ('/' :: '/' :: (rest ++ t))).1 = (splitAuthority ('/' :: '/' :: rest)).1 := by
  cases t with
  | nil => rw [List.append_nil]
  | cons c t =>
    obtain rfl : c = '/' := h c List.mem_cons_self
    rw [splitAuthority_slash]

/-- An authority stands behind two slashes. -/
theorem exists_of_authority {s : List Char} (h : (splitAuthority s).1 ≠ []) :
    ∃ c rest, s = '/' :: '/' :: c :: rest ∧ c ≠ '/' := by
  unfold splitAuthority at h
  split at h
  · next rest =>
    cases rest with
    | nil => exact absurd rfl h
    | cons c rest =>
      refine ⟨c, rest, rfl, ?_⟩
      rintro rfl
      exact h rfl
  · exact absurd rfl h

/-- What is cut off at a mark takes the text behind it that has no such mark. -/
theorem cutAt_append_plain {mark : Char} {t : List Char} (h : mark ∉ t) (s : List Char) :
    cutAt mark (s ++ t) =
      match cutAt mark s with
      | (front, some after) => (front, some (after ++ t))
      | (front, none) => (front ++ t, none) := by
  unfold cutAt
  cases hrest : s.dropWhile (· ≠ mark) with
  | nil =>
    have ht : t.dropWhile (· ≠ mark) = [] := dropWhile_ne_of_not_mem h
    rw [List.dropWhile_append, hrest]
    simp only [List.isEmpty_nil, if_true, ht]
  | cons c rest =>
    obtain ⟨hfront, hbehind⟩ := span_append_of_stop hrest t
    rw [hfront, hbehind]

/-- The parts of a URL by its scheme, its authority and what stands behind them. -/
def assemble (scheme authority rest : List Char) : Parts :=
  let (rest, fragment) := cutAt '#' rest
  let (path, query) := cutAt '?' rest
  ⟨String.ofList scheme, String.ofList authority, String.ofList path,
    query.map String.ofList, fragment.map String.ofList⟩

theorem assemble_append {t : List Char} (hmark : '?' ∉ t) (hhash : '#' ∉ t)
    (scheme authority rest : List Char) :
    assemble scheme authority (rest ++ t) =
      (assemble scheme authority rest).extend (String.ofList t) := by
  unfold assemble
  rw [cutAt_append_plain hhash]
  obtain ⟨front, fragment⟩ := cutAt '#' rest
  cases fragment with
  | some f =>
    obtain ⟨path, query⟩ := cutAt '?' front
    simp only [Parts.extend, Option.map_some, String.ofList_append]
  | none =>
    simp only
    rw [cutAt_append_plain hmark]
    obtain ⟨path, query⟩ := cutAt '?' front
    cases query with
    | some q => simp only [Parts.extend, Option.map_some, Option.map_none, String.ofList_append]
    | none => simp only [Parts.extend, Option.map_none, String.ofList_append]

/-! ## The whole -/

theorem colon_mem_of_scheme {s : List Char} (h : (splitScheme s).1 ≠ []) : ':' ∈ s := by
  by_contra hcolon
  unfold splitScheme at h
  rw [dropWhile_ne_of_not_mem hcolon] at h
  exact h rfl

/-- What a URL was cut into, stage by stage. -/
theorem split?_eq_some_iff {s : String} {p : Parts} :
    split? s = some p ↔ ∃ scheme behind authority rest, splitScheme (tidy s.toList) = (scheme, behind) ∧
      splitAuthority behind = (authority, rest) ∧ authorityFits authority = true ∧
      p = assemble scheme authority rest := by
  unfold split? splitChars
  constructor
  · intro h
    simp only at h
    split at h
    · next hfits => exact ⟨_, _, _, _, rfl, rfl, hfits, (Option.some.inj h).symm⟩
    · cases h
  · rintro ⟨scheme, behind, authority, rest, hscheme, hauthority, hfits, rfl⟩
    rw [hscheme]
    simp only
    rw [hauthority]
    exact if_pos hfits

theorem isWeb_assemble {scheme authority rest : List Char}
    (h : (assemble scheme authority rest).isWeb = true) : scheme ≠ [] ∧ authority ≠ [] := by
  rw [Parts.isWeb, Bool.and_eq_true] at h
  constructor
  · rintro rfl
    exact absurd h.1 Bool.false_ne_true
  · rintro rfl
    exact absurd h.2 Bool.false_ne_true

theorem code_of_letter {c : Char} (h : isAsciiLetter c = true) : 32 < c.toNat := by
  simp only [isAsciiLetter, Bool.or_eq_true, Bool.and_eq_true, decide_eq_true_eq] at h
  omega

/-- A path behind an address of the web is a text behind its last part. -/
theorem split?_append {s tail : String} {p : Parts} (h : split? s = some p) (hweb : p.isWeb = true)
    (hslash : tail.toList.head? = some '/') (hmark : '?' ∉ tail.toList) (hhash : '#' ∉ tail.toList) :
    split? (s ++ tail) = some (p.extend (clean tail)) := by
  obtain ⟨x, hx, hletter⟩ := exists_letter_of_isWeb h hweb
  obtain ⟨t, ht⟩ := List.head?_eq_some_iff.mp hslash
  have hclean : tail.toList.filter counts = '/' :: t.filter counts := by
    rw [ht]
    rfl
  have hsub : tail.toList.filter counts ⊆ tail.toList := fun c hc => (List.mem_filter.mp hc).1
  obtain ⟨scheme, behind, authority, rest, hscheme, hauthority, hfits, rfl⟩ := split?_eq_some_iff.mp h
  obtain ⟨hhttp, hhost⟩ := isWeb_assemble hweb
  have hcolon : ':' ∈ tidy s.toList := colon_mem_of_scheme (by rw [hscheme]; exact hhttp)
  obtain ⟨c, host, rfl, -⟩ := exists_of_authority (s := behind) (by rw [hauthority]; exact hhost)
  refine split?_eq_some_iff.mpr ⟨scheme, '/' :: '/' :: (c :: host ++ tail.toList.filter counts), authority,
    rest ++ tail.toList.filter counts, ?_, ?_, hfits, ?_⟩
  · rw [String.toList_append, tidy_append_of_mem hx (code_of_letter hletter),
      splitScheme_append (.inl hcolon), hscheme]
    rfl
  · rw [hclean, splitAuthority_slash, hauthority]
  · exact (assemble_append (fun hc => hmark (hsub hc)) (fun hc => hhash (hsub hc)) _ _ _).symm

theorem split?_slashes {s tail : String} {p : Parts} (h : split? s = some p) (hweb : p.isWeb = true)
    (hslashes : ∀ c ∈ tail.toList, c = '/') : split? (s ++ tail) = some (p.extend tail) := by
  cases htail : tail.toList with
  | nil =>
    obtain rfl := String.toList_eq_nil_iff.mp htail
    rw [String.append_empty, Parts.extend_empty]
    exact h
  | cons c t =>
    have hhead : tail.toList.head? = some '/' := by
      rw [← hslashes c (by rw [htail]; exact List.mem_cons_self), htail]
      rfl
    have hmark : ∀ mark : Char, mark ≠ '/' → mark ∉ tail.toList := fun mark hne hc =>
      hne (hslashes mark hc)
    rw [split?_append h hweb hhead (hmark '?' (by decide)) (hmark '#' (by decide)),
      clean_of_counts fun c hc => by rw [hslashes c hc]; rfl]

/-- Only slashes, put behind less than an authority, make none. -/
theorem exists_of_slashes {s t : List Char} (hslashes : ∀ c ∈ t, c = '/')
    (h : (splitAuthority (s ++ t)).1 ≠ []) : ∃ c rest, s = '/' :: '/' :: c :: rest := by
  obtain ⟨c, rest, heq, hc⟩ := exists_of_authority h
  have hlength : 2 < s.length := by
    by_contra hshort
    have hthird : (s ++ t)[2]? = some c := by
      rw [heq]
      rfl
    rw [List.getElem?_append_right (by omega)] at hthird
    exact hc (hslashes c (List.mem_of_getElem? hthird))
  match s, hlength, heq with
  | a :: b :: d :: rest, _, heq =>
    simp only [List.cons_append, List.cons.injEq] at heq
    exact ⟨d, rest, by rw [heq.1, heq.2.1]⟩

/-- An address of the web stays one without slashes at its end. -/
theorem exists_split?_of_slashes {s tail : String} {p : Parts} (hslashes : ∀ c ∈ tail.toList, c = '/')
    (h : split? (s ++ tail) = some p) (hweb : p.isWeb = true) :
    ∃ q, split? s = some q ∧ q.isWeb = true := by
  obtain ⟨x, hx, hletter⟩ := exists_letter_of_isWeb h hweb
  have hmem : x ∈ s.toList := by
    rw [String.toList_append, List.mem_append] at hx
    refine hx.resolve_right fun hx => ?_
    rw [hslashes x hx] at hletter
    exact absurd hletter (by decide)
  have hclean : tail.toList.filter counts = tail.toList := by
    refine List.filter_eq_self.mpr fun c hc => ?_
    rw [hslashes c hc]
    rfl
  have hcolon : ':' ∉ tail.toList := fun hc => absurd (hslashes ':' hc) (by decide)
  obtain ⟨scheme, behind, authority, rest, hscheme, hauthority, hfits, rfl⟩ := split?_eq_some_iff.mp h
  obtain ⟨-, hhost⟩ := isWeb_assemble hweb
  rw [String.toList_append, tidy_append_of_mem hmem (code_of_letter hletter), hclean,
    splitScheme_append (.inr hcolon)] at hscheme
  obtain ⟨hname, hbehind⟩ := Prod.mk.inj hscheme
  rw [← hbehind] at hauthority
  obtain ⟨c, host, hslash⟩ := exists_of_slashes hslashes (by rw [hauthority]; exact hhost)
  rw [hslash, List.cons_append, List.cons_append] at hauthority
  have hsame := authority_slashes (c :: host) hslashes
  rw [hauthority] at hsame
  refine ⟨assemble scheme authority (splitAuthority ('/' :: '/' :: c :: host)).2,
    split?_eq_some_iff.mpr ⟨scheme, '/' :: '/' :: c :: host, authority, _, ?_, ?_, hfits, rfl⟩, hweb⟩
  · rw [← hname, ← hslash]
  · exact Prod.ext hsame.symm rfl

/-! ## The end of a path -/

theorem eq_of_cutAt_none {mark : Char} {s front : List Char} (h : cutAt mark s = (front, none)) :
    front = s := by
  unfold cutAt at h
  split at h
  · cases h
  · exact (Prod.mk.inj h).1.symm

/-- The path is the end of the address when nothing stands behind it. -/
theorem path_suffix {s : String} {p : Parts} (h : split? s = some p) (hpath : p.EndsInPath) :
    p.path.toList <:+ tidy s.toList := by
  obtain ⟨scheme, behind, authority, rest, hscheme, hauthority, -, rfl⟩ := split?_eq_some_iff.mp h
  have hrest : rest <:+ tidy s.toList := by
    have hfirst := splitScheme_suffix (tidy s.toList)
    have hsecond := splitAuthority_suffix behind
    rw [hscheme] at hfirst
    rw [hauthority] at hsecond
    exact hsecond.trans hfirst
  unfold assemble at hpath ⊢
  cases hfragment : cutAt '#' rest with
  | mk front fragment =>
    cases hquery : cutAt '?' front with
    | mk path query =>
      simp only [hfragment, hquery] at hpath ⊢
      obtain ⟨hnoQuery, hnoFragment⟩ := hpath
      rw [Option.map_eq_none_iff.mp hnoFragment] at hfragment
      rw [Option.map_eq_none_iff.mp hnoQuery] at hquery
      rw [String.toList_ofList, eq_of_cutAt_none hquery, eq_of_cutAt_none hfragment]
      exact hrest

/-- The end of an address stays its end unless it does not count. -/
theorem getLast?_tidy {s : List Char} {x c : Char} (hx : x ∈ s) (hcode : 32 < x.toNat)
    (hlast : s.getLast? = some c) (hc : counts c = true) : (tidy s).getLast? = some c := by
  obtain ⟨front, rfl⟩ := List.getLast?_eq_some_iff.mp hlast
  have hkept : [c].filter counts = [c] := by simp [hc]
  by_cases hfront : x ∈ front
  · rw [tidy_append_of_mem hfront hcode, hkept, List.getLast?_concat]
  · have hxc : x = c := by simpa [hfront] using hx
    subst hxc
    unfold tidy
    rw [dropWhile_append_stop (by simpa using hcode), List.filter_append]
    show (_ ++ [x].filter counts).getLast? = _
    rw [hkept, List.getLast?_concat]

/-- The path of an address does not end in a slash when the address does not, and its end counts. -/
theorem getLast?_path {s : String} {p : Parts} (h : split? s = some p) (hweb : p.isWeb = true)
    (hpath : p.EndsInPath) (hslash : s.toList.getLast? ≠ some '/')
    (hcounts : ∀ c ∈ s.toList.getLast?, counts c = true) : p.path.toList.getLast? ≠ some '/' := by
  intro hlast
  obtain ⟨x, hx, hletter⟩ := exists_letter_of_isWeb h hweb
  obtain ⟨c, hc⟩ : ∃ c, s.toList.getLast? = some c :=
    Option.isSome_iff_exists.mp (List.getLast?_isSome.mpr (List.ne_nil_of_mem hx))
  have hend := getLast?_tidy hx (code_of_letter hletter) hc (hcounts c hc)
  obtain ⟨front, hfront⟩ := path_suffix h hpath
  rw [← hfront, List.getLast?_append, hlast] at hend
  rw [hc] at hslash
  exact hslash (by simpa using hend.symm)

end LedgerClient.Url
