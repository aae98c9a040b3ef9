/-
Anypay.CurrencyTheorems — the currency in the headers of a request.

`Named headers name` says what the headers name, without `split`: the first of the four
kinds of header that is there and ends as it should, what stands in it between its first
slash and the next, and of that what stands before the first hyphen. `getCurrency_right_iff`
says for which headers `getCurrency` returns the pair of that name, or throws that the
currency is not supported: a header that matches must have a slash, else the subtype it
is asked for is not there and the `TypeError` comes through, and the name must not be one
of those every plain object has a value for, because that value is returned for a code.
-/
import Mathlib.Data.List.TakeWhile
import Anypay.Currencies

namespace Anypay.Bip70

/-! ## What the headers name -/

/-- The kinds of header that are looked at, in their order, and how each has to end. -/
def kinds : List (String × String) :=
  [("accept", "paymentrequest"), ("content-type", "payment"), ("accept", "paymentack"),
   ("x-accept", "paymentack")]

/-- The header is there, and ends as it should. -/
def Matches (headers : String → Option String) (kind : String × String) (header : String) :
    Prop :=
  headers kind.1 = some header ∧ header ≠ "" ∧ kind.2.toList <:+ header.toList

/-- The first header that matches. -/
def First (headers : String → Option String) (header : String) : Prop :=
  ∃ before kind after, kinds = before ++ kind :: after ∧ Matches headers kind header ∧
    ∀ k ∈ before, ∀ h, ¬ Matches headers k h

/-- The part of a text up to the first separator. -/
def UpTo (separator : Char) (text part : List Char) : Prop :=
  separator ∉ part ∧ (text = part ∨ ∃ rest, text = part ++ separator :: rest)

/-- The subtype of a media type. -/
def Subtype (header : String) (subtype : List Char) : Prop :=
  ∃ type rest, '/' ∉ type ∧ header.toList = type ++ '/' :: rest ∧ UpTo '/' rest subtype

/-- The name a header gives the currency. -/
def NameOf (header name : String) : Prop :=
  ∃ subtype, Subtype header subtype ∧ UpTo '-' subtype name.toList

/-- What `getCurrency` is to do. -/
def Right (headers : String → Option String) : Prop :=
  match getCurrency headers with
  | .error e => e = .error "currency not supported"
  | .ok currency => ∃ name code header, currency = { name := some name, code := .own code } ∧
      (name, code) ∈ currencies ∧ First headers header ∧ NameOf header name

/-! ## Splitting -/

theorem upTo_splitOn (c : Char) (text : List Char) : UpTo c text ((text.splitOn c).headD []) := by
  induction text with
  | nil => exact ⟨by simp, .inl (by simp)⟩
  | cons x text ih =>
      rw [List.splitOn_cons_eq_if_modifyHead]
      by_cases hx : x = c
      · subst hx
        simp only [beq_self_eq_true, if_true, List.headD_cons]
        exact ⟨by simp, .inr ⟨text, rfl⟩⟩
      · rw [if_neg (by simpa using hx)]
        obtain ⟨part, parts, hsplit⟩ := List.exists_cons_of_ne_nil (List.splitOn_ne_nil c text)
        rw [hsplit] at ih ⊢
        obtain ⟨hnot, htext⟩ := ih
        refine ⟨?_, ?_⟩
        · simpa [Ne.symm hx] using hnot
        · rcases htext with htext | ⟨rest, htext⟩
          · exact .inl (congrArg (x :: ·) htext)
          · exact .inr ⟨rest, congrArg (x :: ·) htext⟩

theorem UpTo.eq_takeWhile {c : Char} {text part : List Char} (h : UpTo c text part) :
    part = text.takeWhile (· ≠ c) := by
  obtain ⟨hnot, htext⟩ := h
  have hall : ∀ x ∈ part, decide (x ≠ c) = true := by
    intro x hx
    exact decide_eq_true fun he => hnot (he ▸ hx)
  rcases htext with rfl | ⟨rest, rfl⟩
  · exact (List.takeWhile_eq_self_iff.mpr hall).symm
  · rw [List.takeWhile_append_of_pos hall, List.takeWhile_cons_of_neg (by simp), List.append_nil]

/-- A text has one part up to the first separator. -/
theorem UpTo.unique {c : Char} {text part part' : List Char} (h : UpTo c text part)
    (h' : UpTo c text part') : part = part' :=
  h.eq_takeWhile.trans h'.eq_takeWhile.symm

/-- After the first slash. -/
theorem splitOn_slash {header : String} {type rest : List Char} (htype : '/' ∉ type)
    (hheader : header.toList = type ++ '/' :: rest) :
    (header.toList.splitOn '/')[1]? = some ((rest.splitOn '/').headD []) := by
  rw [hheader, List.splitOn_append_cons_self_of_not_mem htype]
  obtain ⟨part, parts, hsplit⟩ := List.exists_cons_of_ne_nil (List.splitOn_ne_nil '/' rest)
  simp [hsplit]

theorem Subtype.unique {header : String} {subtype subtype' : List Char}
    (h : Subtype header subtype) (h' : Subtype header subtype') : subtype = subtype' := by
  obtain ⟨type, rest, htype, hheader, hupTo⟩ := h
  obtain ⟨type', rest', htype', hheader', hupTo'⟩ := h'
  have hsame := splitOn_slash htype hheader
  rw [splitOn_slash htype' hheader', Option.some.injEq] at hsame
  rw [hupTo.unique (upTo_splitOn '/' rest), hupTo'.unique (upTo_splitOn '/' rest'), hsame]

theorem NameOf.unique {header name name' : String} (h : NameOf header name)
    (h' : NameOf header name') : name = name' := by
  obtain ⟨subtype, hsubtype, hname⟩ := h
  obtain ⟨subtype', hsubtype', hname'⟩ := h'
  rw [hsubtype'.unique hsubtype] at hname'
  exact String.toList_injective (hname.unique hname')

/-- With a slash there is a name. -/
theorem nameIn_of_slash {header : String} (h : '/' ∈ header.toList) :
    ∃ name, nameIn header = .ok name ∧ NameOf header name := by
  obtain ⟨type, rest, hheader, htype⟩ := List.eq_append_cons_of_mem h
  have hsplit := splitOn_slash htype hheader
  have hsubtype := upTo_splitOn '/' rest
  generalize (rest.splitOn '/').headD [] = subtype at hsplit hsubtype
  refine ⟨String.ofList ((subtype.splitOn '-').headD []), ?_, subtype,
    ⟨type, rest, htype, hheader, hsubtype⟩, ?_⟩
  · rw [nameIn, hsplit]
  · rw [String.toList_ofList]
    exact upTo_splitOn '-' subtype

theorem nameIn_of_no_slash {header : String} (h : '/' ∉ header.toList) :
    nameIn header = .error .typeError := by
  unfold nameIn
  rw [List.splitOn_eq_singleton h]
  rfl

/-! ## Looking -/

theorem matching_eq_some {headers : String → Option String} {key ending header : String} :
    matching headers key ending = some header ↔ Matches headers (key, ending) header := by
  simp [matching, nonEmpty, Matches, Option.filter_eq_some_iff]

/-- The first header that matches, if one does. -/
def firstMatch (headers : String → Option String) : Option String :=
  kinds.findSome? fun kind => matching headers kind.1 kind.2

theorem first_iff {headers : String → Option String} {header : String} :
    First headers header ↔ firstMatch headers = some header := by
  unfold First firstMatch
  rw [List.findSome?_eq_some_iff]
  simp only [matching_eq_some, Option.eq_none_iff_forall_ne_some, ne_eq]

theorem namedIn_eq (headers : String → Option String) : namedIn headers =
    match firstMatch headers with
    | some header => (nameIn header).map some
    | none => .ok none := by
  simp only [namedIn, firstMatch, kinds, List.findSome?_cons, List.findSome?_nil]
  cases matching headers "accept" "paymentrequest" with
  | some header => rfl
  | none =>
      cases matching headers "content-type" "payment" with
      | some header => rfl
      | none =>
          cases matching headers "accept" "paymentack" with
          | some header => rfl
          | none => cases matching headers "x-accept" "paymentack" <;> rfl

theorem lookup_currencies {name code : String} :
    currencies.lookup name = some code ↔ (name, code) ∈ currencies := by
  constructor
  · intro h
    obtain ⟨before, after, hlist, -⟩ := List.lookup_eq_some_iff.mp h
    rw [hlist]
    simp
  · intro h
    simp only [currencies, List.mem_cons, Prod.mk.injEq, List.not_mem_nil, or_false] at h
    rcases h with ⟨rfl, rfl⟩ | ⟨rfl, rfl⟩ | ⟨rfl, rfl⟩ | ⟨rfl, rfl⟩ <;> decide

/-- What an `if` takes for the code of a name: its own, or what the object inherits. -/
theorem codeFromName_cases (name : String) :
    (∃ code, (name, code) ∈ currencies ∧
      (codeFromName (some name)).filter Property.truthy = some (.own code)) ∨
    (name ∈ inheritedKeys ∧
      (codeFromName (some name)).filter Property.truthy = some (.inherited name)) ∨
    (name ∉ inheritedKeys ∧ (codeFromName (some name)).filter Property.truthy = none) := by
  simp only [codeFromName, propertyOf, Option.getD_some]
  cases hcode : currencies.lookup name with
  | some code =>
      have hmem := lookup_currencies.mp hcode
      have hcodes : ∀ entry ∈ currencies, entry.2 ≠ "" := by decide
      exact .inl ⟨code, hmem, by simp [Property.truthy, hcodes _ hmem]⟩
  | none =>
      by_cases hname : name ∈ inheritedKeys
      · exact .inr (.inl ⟨hname, by simp [hname, Property.truthy]⟩)
      · exact .inr (.inr ⟨hname, by simp [hname]⟩)

theorem currencies_own : ∀ entry ∈ currencies, entry.1 ∉ inheritedKeys := by decide

/-! ## The main result -/

/-- **The currency of the headers.** `getCurrency` is right just where the first header
that matches, if one does, has a slash, and names no key that every plain object has. -/
theorem getCurrency_right_iff (headers : String → Option String) :
    Right headers ↔ ∀ header, First headers header →
      '/' ∈ header.toList ∧ ∀ name, NameOf header name → name ∉ inheritedKeys := by
  have hnamed := namedIn_eq headers
  unfold Right getCurrency
  cases hfirst : firstMatch headers with
  | none =>
      rw [hfirst] at hnamed
      have hundefined : (codeFromName none).filter Property.truthy = none := by decide
      simp only [hnamed, bind, Except.bind, hundefined, first_iff, hfirst]
      simp
  | some header =>
      rw [hfirst] at hnamed
      simp only [first_iff, hfirst, Option.some.injEq, forall_eq', hnamed]
      by_cases hslash : '/' ∈ header.toList
      · obtain ⟨name, hname, hnameOf⟩ := nameIn_of_slash hslash
        have honly : (∀ name', NameOf header name' → name' ∉ inheritedKeys) ↔
            name ∉ inheritedKeys := by
          constructor
          · intro h
            exact h name hnameOf
          · intro h name' hname'
            rw [hname'.unique hnameOf]
            exact h
        rw [honly, hname]
        simp only [bind, Except.bind, Except.map]
        rcases codeFromName_cases name with ⟨code, hmem, hcode⟩ | ⟨hinherited, hcode⟩ |
            ⟨hinherited, hcode⟩
        · rw [hcode]
          have hright : ∃ name' code' header', ({ name := some name, code := .own code } :
              Currency) = { name := some name', code := .own code' } ∧
              (name', code') ∈ currencies ∧ header = header' ∧ NameOf header' name' :=
            ⟨name, code, header, rfl, hmem, rfl, hnameOf⟩
          simpa [hslash, currencies_own _ hmem] using hright
        · rw [hcode]
          simp [hinherited]
        · rw [hcode]
          simp [hslash, hinherited]
      · rw [nameIn_of_no_slash hslash]
        simp [hslash, bind, Except.bind, Except.map]

/-! ## Headers that are taken wrong -/

/-- A request with one header. -/
def accepting (text : String) (key : String) : Option String :=
  if key = "accept" then some text else none

/-- No currency has the name, and one is returned for it. -/
theorem constructor_taken : ¬ ∀ headers, Right headers := by
  intro h
  have hright := h (accepting "application/constructor-paymentrequest")
  have hcode : getCurrency (accepting "application/constructor-paymentrequest") =
      .ok { name := some "constructor", code := .inherited "constructor" } := by
    decide +kernel
  rw [Right, hcode] at hright
  obtain ⟨_, _, _, hcurrency, -⟩ := hright
  cases hcurrency

/-- Without a slash the error is another one. -/
example : getCurrency (accepting "paymentrequest") = .error .typeError := by decide +kernel

end Anypay.Bip70
