import Mathlib

/-! `HTTPClient::URL::parse`, which splits the Datadog Agent URL at the first
`"://"`, checks the scheme against the five it supports and, for the unix
domain socket schemes, that the socket path is absolute. Text is a list of
characters, one a byte. -/
namespace DdTrace.HttpClient

/-- `std::search`: where the first occurrence of `needle` in `haystack`
starts, or `haystack.length` when there is none. -/
def search : List Char → List Char → Nat
  | [], _ => 0
  | c :: rest, needle => if needle.isPrefixOf (c :: rest) then 0 else search rest needle + 1

/-- `std::find`: the position of the first `value`, or `range.length`. -/
def find (range : List Char) (value : Char) : Nat := range.findIdx (· == value)

/-- Modelled from the spec: the codes of `Error` that `URL::parse` reports
(`error.h` is not under src/). -/
inductive ErrorCode
  | urlMissingSeparator
  | urlUnsupportedScheme
  | urlUnixDomainSocketPathNotAbsolute
  deriving DecidableEq, Repr

/-- Modelled from the spec: `Error`, a code and a message. -/
structure Error where
  code : ErrorCode
  message : List Char
  deriving DecidableEq, Repr

structure URL where
  scheme : List Char
  authority : List Char
  path : List Char
  deriving DecidableEq, Repr

def separator : List Char := "://".toList

/-- The local array `supported` of `URL::parse`. -/
def supported : List (List Char) :=
  ["http".toList, "https".toList, "unix".toList, "http+unix".toList, "https+unix".toList]

def URL.parse (input : List Char) : Except Error URL :=
  let afterScheme := search input separator
  if afterScheme = input.length then
    .error ⟨.urlMissingSeparator,
      "Datadog Agent URL is missing the \"://\" separator: \"".toList ++ input ++ ['"']⟩
  else
    let scheme := input.take afterScheme
    if scheme ∉ supported then
      .error ⟨.urlUnsupportedScheme,
        "Unsupported URI scheme \"".toList ++ scheme ++ "\" in Datadog Agent URL \"".toList ++
          input ++ "\". The following are supported:".toList ++
          (supported.map fun supportedScheme => ' ' :: supportedScheme).flatten⟩
    else
      let authorityAndPath := input.drop (afterScheme + separator.length)
      if scheme = "unix".toList ∨ scheme = "http+unix".toList ∨ scheme = "https+unix".toList then
        if authorityAndPath.isEmpty ∨ authorityAndPath.head? ≠ some '/' then
          .error ⟨.urlUnixDomainSocketPathNotAbsolute,
            "Unix domain socket paths for Datadog Agent must be absolute, i.e. must begin with a \"/\". The path \"".toList ++
              authorityAndPath ++ "\" is not absolute. Error occurred for URL: \"".toList ++
              input ++ ['"']⟩
        else .ok ⟨scheme, authorityAndPath, []⟩
      else
        let afterAuthority := find authorityAndPath '/'
        .ok ⟨scheme, authorityAndPath.take afterAuthority, authorityAndPath.drop afterAuthority⟩

section Search

variable {needle : List Char}

theorem search_le (haystack : List Char) : search haystack needle ≤ haystack.length := by
  induction haystack with
  | nil => simp [search]
  | cons c rest ih => simp only [search, List.length_cons]; split <;> omega

theorem not_isPrefix_drop_of_lt_search {haystack : List Char} {j : Nat}
    (h : j < search haystack needle) : ¬ needle <+: haystack.drop j := by
  induction haystack generalizing j with
  | nil => simp [search] at h
  | cons c rest ih =>
    simp only [search] at h
    split at h
    · omega
    · rename_i hnp
      cases j with
      | zero => rwa [List.drop_zero, ← List.isPrefixOf_iff_prefix]
      | succ j => exact ih (by omega)

theorem isPrefix_drop_search {haystack : List Char} (h : search haystack needle < haystack.length) :
    needle <+: haystack.drop (search haystack needle) := by
  induction haystack with
  | nil => simp [search] at h
  | cons c rest ih =>
    simp only [search, List.length_cons] at h ⊢
    split
    · simpa [← List.isPrefixOf_iff_prefix] using ‹_›
    · split at h
      · contradiction
      · exact ih (by omega)

theorem search_le_of_isPrefix_drop {haystack : List Char} {j : Nat}
    (h : needle <+: haystack.drop j) : search haystack needle ≤ j := by
  by_contra hlt
  exact not_isPrefix_drop_of_lt_search (by omega) h

theorem search_eq_length_iff {haystack : List Char} (hne : needle ≠ []) :
    search haystack needle = haystack.length ↔ ¬ needle <:+: haystack := by
  constructor
  · rintro h ⟨s, t, rfl⟩
    have := @search_le_of_isPrefix_drop needle (s ++ needle ++ t) s.length (by simp)
    have : 0 < needle.length := List.length_pos.mpr hne
    simp only [List.length_append] at h
    omega
  · intro h
    by_contra hne'
    have hlt : search haystack needle < haystack.length := lt_of_le_of_ne (search_le _) hne'
    exact h (List.infix_iff_prefix_suffix.mpr ⟨_, isPrefix_drop_search hlt, List.drop_suffix _ _⟩)

theorem search_eq_of_first {haystack scheme rest : List Char} (hsplit : haystack = scheme ++ needle ++ rest)
    (hfirst : ∀ j < scheme.length, ¬ needle <+: haystack.drop j) :
    search haystack needle = scheme.length := by
  have hle : search haystack needle ≤ scheme.length :=
    search_le_of_isPrefix_drop (by simp [hsplit, List.append_assoc])
  by_contra hne
  have hlen : scheme.length ≤ haystack.length := by simp [hsplit]
  exact hfirst _ (by omega) (isPrefix_drop_search (by omega))

theorem take_append_drop_search {haystack : List Char} (h : search haystack needle < haystack.length) :
    haystack.take (search haystack needle) ++ needle ++
      haystack.drop (search haystack needle + needle.length) = haystack := by
  obtain ⟨t, ht⟩ := isPrefix_drop_search h
  rw [← List.drop_drop, ← ht, List.drop_left, List.append_assoc, ht, List.take_append_drop]

end Search

theorem find_append {authority path : List Char} {value : Char} (ha : value ∉ authority)
    (hp : path = [] ∨ path.head? = some value) :
    find (authority ++ path) value = authority.length := by
  induction authority with
  | nil => cases path <;> simp_all [find, List.findIdx_cons]
  | cons c authority ih =>
    have hc : (c == value) = false := by
      simpa using fun h : c = value => ha (h ▸ List.mem_cons_self _ _)
    have := ih (fun h => ha (List.mem_cons_of_mem _ h))
    simp only [find] at this ⊢
    simp [List.findIdx_cons, hc, this]

def errorCode : Except Error URL → Option ErrorCode
  | .error e => some e.code
  | .ok _ => none

def unixSchemes : List (List Char) := ["unix".toList, "http+unix".toList, "https+unix".toList]

theorem separator_ne_nil : separator ≠ [] := by decide

theorem parse_split {input scheme rest : List Char} (hsplit : input = scheme ++ separator ++ rest)
    (hfirst : ∀ j < scheme.length, ¬ separator <+: input.drop j) :
    search input separator = scheme.length ∧ search input separator ≠ input.length ∧
      input.take (search input separator) = scheme ∧
      input.drop (search input separator + separator.length) = rest := by
  have hs := search_eq_of_first hsplit hfirst
  refine ⟨hs, ?_, by rw [hs, hsplit]; simp, by rw [hs, hsplit]; simp⟩
  rw [hs, hsplit]
  simp [separator]

theorem parse_error_iff (input : List Char) :
    (errorCode (URL.parse input) = some .urlMissingSeparator ↔ ¬ separator <:+: input) ∧
    ∀ scheme rest, input = scheme ++ separator ++ rest →
      (∀ j < scheme.length, ¬ separator <+: input.drop j) →
      (errorCode (URL.parse input) = some .urlUnsupportedScheme ↔ scheme ∉ supported) ∧
      (errorCode (URL.parse input) = some .urlUnixDomainSocketPathNotAbsolute ↔
        scheme ∈ unixSchemes ∧ rest.head? ≠ some '/') ∧
      (errorCode (URL.parse input) = none ↔
        scheme ∈ supported ∧ ¬ (scheme ∈ unixSchemes ∧ rest.head? ≠ some '/')) := by
  constructor
  · rw [← search_eq_length_iff separator_ne_nil]
    simp only [URL.parse]
    split_ifs <;> simp_all [errorCode]
  · intro scheme rest hsplit hfirst
    obtain ⟨-, hne, htake, hdrop⟩ := parse_split hsplit hfirst
    have hunix : (scheme = "unix".toList ∨ scheme = "http+unix".toList ∨
        scheme = "https+unix".toList) ↔ scheme ∈ unixSchemes := by simp [unixSchemes]
    have hsupported : scheme ∈ unixSchemes → scheme ∈ supported :=
      fun h => (show unixSchemes ⊆ supported by decide) h
    have hpath : (rest.isEmpty ∨ rest.head? ≠ some '/') ↔ rest.head? ≠ some '/' := by
      cases rest <;> simp
    simp only [URL.parse, hne, htake, hdrop, if_false, hunix, hpath]
    split_ifs <;> simp_all [errorCode]

theorem parse_error_quotes_input {input : List Char} {e : Error} (h : URL.parse input = .error e) :
    ∃ pre post, e.message = pre ++ '"' :: input ++ '"' :: post := by
  dsimp only [URL.parse] at h
  split_ifs at h <;> cases h
  · exact ⟨"Datadog Agent URL is missing the \"://\" separator: ".toList, [], by simp⟩
  · exact ⟨"Unix domain socket paths for Datadog Agent must be absolute, i.e. must begin with a \"/\". The path \"".toList ++
      input.drop (search input separator + separator.length) ++
      "\" is not absolute. Error occurred for URL: ".toList, [], by simp⟩
  · exact ⟨"Unsupported URI scheme \"".toList ++ input.take (search input separator) ++
      "\" in Datadog Agent URL ".toList, ". The following are supported:".toList ++
      (supported.map fun supportedScheme => ' ' :: supportedScheme).flatten, by simp⟩

theorem not_isPrefix_separator_drop {scheme : List Char} (h : ':' ∉ scheme) (tail : List Char) :
    ∀ j < scheme.length, ¬ separator <+: (scheme ++ tail).drop j := by
  intro j hj hp
  rw [List.drop_append_of_le_length hj.le, List.drop_eq_getElem_cons hj, List.cons_append] at hp
  have hcolon : ':' = scheme[j] := (List.cons_prefix_cons.mp hp).1
  exact h (hcolon ▸ List.getElem_mem hj)

theorem colon_not_mem_of_mem_supported {scheme : List Char} (h : scheme ∈ supported) :
    ':' ∉ scheme := by
  simp only [supported, List.mem_cons, List.mem_singleton, List.not_mem_nil, or_false] at h
  rcases h with rfl | rfl | rfl | rfl | rfl <;> decide

theorem parse_concat_inverse :
    (∀ input url, URL.parse input = .ok url → url.scheme ++ separator ++ url.authority ++ url.path = input) ∧
    ∀ url : URL,
      ((url.scheme = "http".toList ∨ url.scheme = "https".toList) ∧ '/' ∉ url.authority ∧
          (url.path = [] ∨ url.path.head? = some '/') ∨
        url.scheme ∈ unixSchemes ∧ url.authority.head? = some '/' ∧ url.path = []) →
      URL.parse (url.scheme ++ separator ++ url.authority ++ url.path) = .ok url := by
  constructor
  · intro input url h
    simp only [URL.parse] at h
    split_ifs at h with hmissing _ hunix
    · cases h
      simpa using take_append_drop_search (lt_of_le_of_ne (search_le _) hmissing)
    · cases h
      simpa [List.append_assoc] using take_append_drop_search (lt_of_le_of_ne (search_le _) hmissing)
  · rintro ⟨scheme, authority, path⟩ hurl
    dsimp only at hurl ⊢
    have hcolon : ':' ∉ scheme := by
      apply colon_not_mem_of_mem_supported
      rcases hurl with ⟨hs | hs, -⟩ | ⟨hs, -⟩ <;> simp_all [supported, unixSchemes]
    obtain ⟨-, hne, htake, hdrop⟩ := @parse_split _ scheme (authority ++ path) rfl
      (by simpa using not_isPrefix_separator_drop hcolon (separator ++ (authority ++ path)))
    simp only [List.append_assoc] at htake hdrop hne ⊢
    simp only [URL.parse, hne, htake, hdrop, if_false]
    rcases hurl with ⟨hs, hslash, hpath⟩ | ⟨hs, hhead, rfl⟩
    · have hfind := find_append hslash hpath
      rcases hs with rfl | rfl <;> simp [supported, hfind]
    · obtain ⟨rest, rfl⟩ : ∃ rest, authority = '/' :: rest := by
        cases authority <;> simp_all
      simp [unixSchemes] at hs
      rcases hs with rfl | rfl | rfl <;> simp [supported]

theorem find_split (range : List Char) (value : Char) :
    value ∉ range.take (find range value) ∧
      (range.drop (find range value) = [] ∨ (range.drop (find range value)).head? = some value) := by
  induction range with
  | nil => simp [find]
  | cons c range ih =>
    by_cases hc : c = value
    · simp [find, List.findIdx_cons, hc]
    · have hc' : (c == value) = false := by simpa using hc
      simpa [find, List.findIdx_cons, hc', Ne.symm hc] using ih

theorem parse_ok_wellFormed (input : List Char) (url : URL) (h : URL.parse input = .ok url) :
    (url.scheme = "http".toList ∨ url.scheme = "https".toList) ∧ '/' ∉ url.authority ∧
        (url.path = [] ∨ url.path.head? = some '/') ∨
      url.scheme ∈ unixSchemes ∧ url.authority.head? = some '/' ∧ url.path = [] := by
  simp only [URL.parse] at h
  split_ifs at h with hmissing hsupported hunix hpath
  · cases h
    exact .inr ⟨by simpa [unixSchemes] using hunix, by simp_all, rfl⟩
  · cases h
    refine .inl ⟨?_, find_split _ _⟩
    simp only [supported, List.mem_cons, List.mem_singleton, List.not_mem_nil, or_false,
      not_not] at hsupported
    rcases hsupported with hs | hs | hs | hs | hs <;> simp_all

theorem parse_ok_wellFormed_http :
    URL.parse "http://localhost:8126/v0.4/traces".toList =
        .ok ⟨"http".toList, "localhost:8126".toList, "/v0.4/traces".toList⟩ ∧
      (("http".toList = "http".toList ∨ "http".toList = "https".toList) ∧
          '/' ∉ "localhost:8126".toList ∧
          ("/v0.4/traces".toList = [] ∨ "/v0.4/traces".toList.head? = some '/') ∨
        "http".toList ∈ unixSchemes ∧ "localhost:8126".toList.head? = some '/' ∧
          "/v0.4/traces".toList = []) :=
  ⟨rfl, parse_ok_wellFormed "http://localhost:8126/v0.4/traces".toList
    ⟨"http".toList, "localhost:8126".toList, "/v0.4/traces".toList⟩ rfl⟩

example : URL.parse "unix:///var/run/datadog/apm.sock".toList =
    .ok ⟨"unix".toList, "/var/run/datadog/apm.sock".toList, []⟩ := rfl

end DdTrace.HttpClient
