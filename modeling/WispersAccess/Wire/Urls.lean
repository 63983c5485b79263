import WispersAccess.Foundation.Texts
import WispersAccess.Wire.Contract

/-!
# URLs and origins

URLs are read by a parser of its own, of which this is what the program relies
on: hosts of web URLs come back normalised, and the printed form of an origin
parses to the same origin.
-/

namespace WispersAccess
namespace Wire

open Foundation

/-- What a URL is made of. -/
structure Url where
  scheme : String
  username : String
  password : Option String
  host : Option String
  /-- The port, unless it is the scheme's default. -/
  port : Option UInt16
  path : String
  query : Option String
  fragment : Option String
  /-- The URL written out. -/
  text : String
  deriving DecidableEq, Repr

inductive OriginError where
  /-- Expected `scheme://host[:port]`. -/
  | notUrl
  | userInfo
  /-- An origin has no path, query or fragment. -/
  | path
  | scheme
  | missingHost
  deriving DecidableEq, Repr

/-- The origin of a URL, which must be `http` or `https`. -/
def Origin.of (url : Url) : Except OriginError Origin :=
  if url.scheme = "http" then
    match url.host with
    | none => Except.error OriginError.missingHost
    | some host => Except.ok { https := false, host := host, port := url.port.getD 80 }
  else if url.scheme = "https" then
    match url.host with
    | none => Except.error OriginError.missingHost
    | some host => Except.ok { https := true, host := host, port := url.port.getD 443 }
  else Except.error OriginError.scheme

/-- Whether the host names the loopback. -/
def Origin.isLoopback (o : Origin) : Bool :=
  o.host = "localhost" || o.host = "127.0.0.1" || o.host = "[::1]"

/-- No user information, path, query or fragment. -/
def Url.isBare (url : Url) : Bool :=
  url.username = "" && url.password = none && url.path = "/" && url.query = none &&
    url.fragment = none

/-- A printable ASCII character that is not an uppercase letter. -/
def isHostChar (c : Char) : Bool :=
  '!' ≤ c && c ≤ '~' && !('A' ≤ c && c ≤ 'Z')

/-- All characters of a text are ones a host may have. -/
def HostChars (s : String) : Prop :=
  forall c, c ∈ s.toList -> isHostChar c = true

instance decidableHostChars (s : String) : Decidable (HostChars s) :=
  decidable_of_iff (s.toList.all isHostChar = true) List.all_eq_true

/-- `Url::parse`. -/
structure UrlParser where
  parse : String -> Option Url
  host_chars : forall s url o, parse s = some url -> Origin.of url = Except.ok o ->
    HostChars o.host
  parse_origin : forall s url o, parse s = some url -> Origin.of url = Except.ok o ->
    exists url', parse o.toText = some url' ∧ url'.isBare = true ∧ Origin.of url' = Except.ok o

section
variable (urls : UrlParser)

/-- `Origin::from_str`. -/
def Origin.parse (s : String) : Except OriginError Origin :=
  match urls.parse (trim s) with
  | none => Except.error OriginError.notUrl
  | some url =>
      if url.username ≠ "" ∨ url.password ≠ none then Except.error OriginError.userInfo
      else if url.path ≠ "/" ∨ url.query ≠ none ∨ url.fragment ≠ none then
        Except.error OriginError.path
      else Origin.of url

end

section
variable {urls : UrlParser}

theorem Origin.parse_eq_ok_iff {s : String} {o : Origin} :
    Origin.parse urls s = Except.ok o <->
      exists url, urls.parse (trim s) = some url ∧ url.isBare = true ∧
        Origin.of url = Except.ok o := by
  unfold Origin.parse Url.isBare
  cases hurl : urls.parse (trim s) with
  | none =>
      constructor
      · nofun
      · intro hparsed
        rcases hparsed with ⟨url, heq, -⟩
        cases heq
  | some url =>
      by_cases huser : url.username ≠ "" ∨ url.password ≠ none
      · simp only [if_pos huser]
        constructor
        · nofun
        · intro hparsed
          rcases hparsed with ⟨url', heq, hbare, -⟩
          cases heq
          simp only [Bool.and_eq_true, decide_eq_true_eq] at hbare
          rcases huser with huser | huser
          · exact absurd hbare.left.left.left.left huser
          · exact absurd hbare.left.left.left.right huser
      · by_cases hpath : url.path ≠ "/" ∨ url.query ≠ none ∨ url.fragment ≠ none
        · simp only [if_neg huser, if_pos hpath]
          constructor
          · nofun
          · intro hparsed
            rcases hparsed with ⟨url', heq, hbare, -⟩
            cases heq
            simp only [Bool.and_eq_true, decide_eq_true_eq] at hbare
            rcases hpath with hpath | hpath | hpath
            · exact absurd hbare.left.left.right hpath
            · exact absurd hbare.left.right hpath
            · exact absurd hbare.right hpath
        · simp only [if_neg huser, if_neg hpath]
          push Not at huser hpath
          constructor
          · intro h
            refine ⟨url, rfl, ?_, h⟩
            simp only [Bool.and_eq_true, decide_eq_true_eq]
            exact ⟨⟨⟨⟨huser.left, huser.right⟩, hpath.left⟩, hpath.right.left⟩,
              hpath.right.right⟩
          · intro hparsed
            rcases hparsed with ⟨url', heq, -, h⟩
            cases heq
            exact h

/-- A parsed origin. -/
def Origin.Parsed (urls : UrlParser) (o : Origin) : Prop :=
  exists s url, urls.parse s = some url ∧ Origin.of url = Except.ok o

theorem Origin.parsed_of_parse {s : String} {o : Origin}
    (h : Origin.parse urls s = Except.ok o) : o.Parsed urls := by
  rcases Origin.parse_eq_ok_iff.mp h with ⟨url, hurl, -, horigin⟩
  exact ⟨trim s, url, hurl, horigin⟩

theorem isWhiteSpace_of_isHostChar {c : Char} (h : isHostChar c = true) :
    isWhiteSpace c = false := by
  unfold isHostChar at h
  simp only [Bool.and_eq_true, decide_eq_true_eq] at h
  have hlow : 0x21 ≤ c.toNat := h.left.left
  have hhigh : c.toNat ≤ 0x7e := h.left.right
  simp [isWhiteSpace]
  omega

theorem isHostChar_of_isDigit {c : Char} (h : c.isDigit = true) : isHostChar c = true := by
  have hall : forall c : Char, c.toNat < 128 -> c.isDigit = true -> isHostChar c = true :=
    forall_ascii (by decide)
  exact hall c (ascii_of_isDigit h) h

theorem HostChars.append {s t : String} (hs : HostChars s) (ht : HostChars t) :
    HostChars (s ++ t) := by
  intro c hc
  rw [String.toList_append, List.mem_append] at hc
  rcases hc with hc | hc
  · exact hs c hc
  · exact ht c hc

theorem hostChars_toString (n : Nat) : HostChars (toString n) := by
  intro c hc
  rw [Nat.toString_eq_ofList_toDigits, String.toList_ofList] at hc
  exact isHostChar_of_isDigit (isDigit_of_mem_toDigits hc)

theorem Origin.hostChars_toText {o : Origin} (h : HostChars o.host) : HostChars o.toText := by
  have hscheme : HostChars (if o.https then "https" else "http") := by
    split
    · decide
    · decide
  have hseparator : HostChars "://" := by decide
  have hcolon : HostChars ":" := by decide
  have hbase := (hscheme.append hseparator).append h
  unfold Origin.toText
  simp only
  split
  · exact (hbase.append hcolon).append (hostChars_toString _)
  · exact hbase

/-- The printed form of a parsed origin parses to it. -/
theorem Origin.parse_toText {o : Origin} (h : o.Parsed urls) :
    Origin.parse urls o.toText = Except.ok o := by
  rcases h with ⟨s, url, hurl, horigin⟩
  have hchars := Origin.hostChars_toText (urls.host_chars s url o hurl horigin)
  rw [Origin.parse_eq_ok_iff,
    trim_eq_self fun c hc => isWhiteSpace_of_isHostChar (hchars c hc)]
  exact urls.parse_origin s url o hurl horigin

theorem Origin.toText_injective {o o' : Origin} (h : o.Parsed urls) (h' : o'.Parsed urls)
    (heq : o.toText = o'.toText) : o = o' := by
  have hparse := Origin.parse_toText h
  rw [heq, Origin.parse_toText h'] at hparse
  exact (Except.ok.inj hparse).symm

end

/-- The URL of a development server. -/
def developmentUrl : Url where
  scheme := "http"
  username := ""
  password := none
  host := some "localhost"
  port := some 4200
  path := "/"
  query := none
  fragment := none
  text := "http://localhost:4200/"

/-- A parser that knows this URL. -/
def UrlParser.development : UrlParser where
  parse := fun s =>
    if s = "http://localhost:4200" ∨ s = "http://localhost:4200/" then some developmentUrl
    else none
  host_chars := by
    intro s url o hurl horigin
    split at hurl
    · cases hurl
      cases horigin
      decide
    · cases hurl
  parse_origin := by
    intro s url o hurl horigin
    split at hurl
    · cases hurl
      cases horigin
      exact ⟨developmentUrl, by decide, by decide, rfl⟩
    · cases hurl

end Wire
end WispersAccess
