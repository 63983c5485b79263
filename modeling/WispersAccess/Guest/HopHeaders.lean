import WispersAccess.Guest.CookieStripping
import WispersAccess.Host.Config

/-!
# Headers for one hop

A proxy leaves out of what it passes on the headers that are for the connection it
came on.  A request that asks to upgrade its connection keeps those that do so.
The proxies of the guest and of the host have the same functions for this.
-/

namespace WispersAccess
namespace Guest

open Foundation
open Host (eqIgnoreAsciiCase)
open Wire (utf8)

namespace HeaderMap

/-- The first value under a name. -/
def get (headers : HeaderMap) (name : String) : Option (List UInt8) :=
  (headers.getAll name).head?

def containsKey (headers : HeaderMap) (name : String) : Bool :=
  (headers.get name).isSome

/-- The value takes the place of all those that are there. -/
def insert (headers : HeaderMap) (name : String) (value : List UInt8) : HeaderMap :=
  (headers.remove name).append name value

def removeAll (headers : HeaderMap) (names : List String) : HeaderMap :=
  names.foldl remove headers

variable (headers : HeaderMap) (name other : String)

theorem getAll_remove : (headers.remove name).getAll other =
    if other = name then [] else headers.getAll other := by
  by_cases h : other = name
  · rw [if_pos h, h, getAll_remove_self]
  · rw [if_neg h, getAll_remove_of_ne _ h]

theorem getAll_append (value : List UInt8) : (headers.append name value).getAll other =
    headers.getAll other ++ if other = name then [value] else [] :=
  getAll_appendAll headers [value] name other

theorem getAll_insert (value : List UInt8) : (headers.insert name value).getAll other =
    if other = name then [value] else headers.getAll other := by
  unfold insert
  rw [getAll_append, getAll_remove]
  split
  · rfl
  · exact List.append_nil _

theorem getAll_removeAll (names : List String) : (headers.removeAll names).getAll name =
    if name ∈ names then [] else headers.getAll name := by
  unfold removeAll
  induction names generalizing headers with
  | nil => rw [List.foldl_nil, if_neg List.not_mem_nil]
  | cons first rest ih =>
      rw [List.foldl_cons, ih, getAll_remove]
      by_cases hrest : name ∈ rest
      · rw [if_pos hrest, if_pos (List.mem_cons_of_mem _ hrest)]
      · rw [if_neg hrest]
        by_cases hfirst : name = first
        · rw [if_pos hfirst, if_pos (hfirst ▸ List.mem_cons_self)]
        · rw [if_neg hfirst, if_neg fun hmem => (List.mem_cons.mp hmem).elim hfirst hrest]

/-- Some headers go in any case, those of a handshake unless it is one. -/
def withoutHop (always handshake : List String) (headers : HeaderMap) (isUpgrade : Bool) :
    HeaderMap :=
  if isUpgrade then headers.removeAll always else (headers.removeAll always).removeAll handshake

theorem getAll_withoutHop (always handshake : List String) (isUpgrade : Bool) :
    (withoutHop always handshake headers isUpgrade).getAll name =
      if name ∈ always ∨ isUpgrade = false ∧ name ∈ handshake then [] else headers.getAll name := by
  cases isUpgrade with
  | true => simp [withoutHop, getAll_removeAll]
  | false =>
      simp only [withoutHop, Bool.false_eq_true, if_false, getAll_removeAll, true_and]
      by_cases hhandshake : name ∈ handshake
      · rw [if_pos hhandshake, if_pos (Or.inr hhandshake)]
      · rw [if_neg hhandshake]
        simp only [hhandshake, or_false]

/-- Whether the first `Connection` header lists the token. -/
def connectionLists (token : String) (headers : HeaderMap) : Bool :=
  match (headers.get "connection").bind headerText with
  | some v => (v.toList.splitOn ',').any fun t => eqIgnoreAsciiCase (trim (String.ofList t)) token
  | none => false

end HeaderMap

/-!
## The guest's functions
-/

/-- Headers that are for one connection only. -/
def hopByHopNames : List String :=
  ["keep-alive", "proxy-authenticate", "proxy-authorization", "te", "trailers"]

/-- Headers that carry the handshake of an upgrade. -/
def handshakeNames : List String :=
  ["connection", "upgrade"]

def stripHopByHopHeaders (headers : HeaderMap) (isUpgrade : Bool) : HeaderMap :=
  headers.withoutHop hopByHopNames handshakeNames isUpgrade

def connectionListsUpgrade (headers : HeaderMap) : Bool :=
  headers.connectionLists "upgrade"

/-- A `Connection` header that lists the token, and an `Upgrade` header. -/
def isProtocolUpgradeRequest (headers : HeaderMap) : Bool :=
  headers.containsKey "upgrade" && connectionListsUpgrade headers

/-!
## Blanks around a value
-/

theorem isVisible_of_isBlank {b : UInt8} (h : isBlank b = true) : isVisible b = true := by
  unfold isBlank at h
  simp only [Bool.or_eq_true, decide_eq_true_eq] at h
  rcases h with rfl | rfl
  · rfl
  · rfl

theorem visible_trimBlanks {value : List UInt8} : Visible (trimBlanks value) <-> Visible value := by
  constructor
  · intro h b hb
    rcases mem_trimEnds_or (p := isBlank) hb with hkept | hblank
    · exact h b hkept
    · exact isVisible_of_isBlank hblank
  · exact fun h b hb => h b (mem_trimBlanks hb)

theorem headerText_of_visible {value : List UInt8} (h : Visible value) :
    headerText value = some (byteText value) :=
  headerText_eq_some_iff.mpr ⟨h, rfl⟩

theorem headerText_of_invisible {value : List UInt8} (h : ¬ Visible value) :
    headerText value = none := by
  cases htext : headerText value with
  | none => rfl
  | some s => exact absurd (headerText_eq_some_iff.mp htext).left h

/-- The trimmed fields of a visible value's text. -/
theorem trimmed_fields {value : List UInt8} (h : Visible value) (sep : UInt8) :
    ((byteText value).toList.splitOn (byteChar sep)).map (fun t => trim (String.ofList t)) =
      ((value.splitOn sep).map trimBlanks).map byteText := by
  unfold byteText
  rw [String.toList_ofList, splitOn_map byteChar_injective, List.map_map, List.map_map]
  apply List.map_congr_left
  intro part hpart
  exact trim_byteChars fun b hb => h b (mem_of_mem_splitOn hpart hb)

/-- They are those of the value without the blanks around it. -/
theorem trimmed_fields_trimBlanks {value : List UInt8} (h : Visible value) {sep : UInt8}
    (hsep : isBlank sep = false) :
    ((byteText (trimBlanks value)).toList.splitOn (byteChar sep)).map
        (fun t => trim (String.ofList t)) =
      ((byteText value).toList.splitOn (byteChar sep)).map (fun t => trim (String.ofList t)) := by
  have hfields : ((trimBlanks value).splitOn sep).map trimBlanks =
      (value.splitOn sep).map trimBlanks := map_trimEnds_splitOn hsep value
  rw [trimmed_fields (visible_trimBlanks.mpr h), trimmed_fields h, hfields]

/-- The tokens of a `Connection` header do not depend on the blanks around it. -/
theorem connectionLists_of_trimmed {token : String} {headers arrived : HeaderMap}
    (h : arrived.getAll "connection" = (headers.getAll "connection").map trimBlanks) :
    arrived.connectionLists token = headers.connectionLists token := by
  unfold HeaderMap.connectionLists HeaderMap.get
  rw [h, List.head?_map]
  cases (headers.getAll "connection").head? with
  | none => rfl
  | some value =>
      rw [Option.map_some, Option.bind_some, Option.bind_some]
      by_cases hvalue : Visible value
      · rw [headerText_of_visible hvalue, headerText_of_visible (visible_trimBlanks.mpr hvalue)]
        have hcomma : ',' = byteChar 44 := by decide
        have hfields := @trimmed_fields_trimBlanks _ hvalue 44 (by decide)
        have hany := congrArg (List.any · fun t => eqIgnoreAsciiCase t token) hfields
        simp only [List.any_map, Function.comp_def] at hany
        simp only [hcomma, hany]
      · rw [headerText_of_invisible hvalue,
          headerText_of_invisible fun hvisible => hvalue (visible_trimBlanks.mp hvisible)]

/-- A cookie is found where it was before the blanks went. -/
theorem isPresentedIn_trimmed (cookie : RequiredCookie) (values : List (List UInt8)) :
    cookie.isPresentedIn (values.map trimBlanks) = cookie.isPresentedIn values := by
  have hin : forall value, cookie.IsIn (trimBlanks value) <-> cookie.IsIn value := by
    intro value
    have hfields : ((trimBlanks value).splitOn 59).map trimBlanks =
        (value.splitOn 59).map trimBlanks := map_trimEnds_splitOn (by decide) value
    unfold RequiredCookie.IsIn
    rw [← List.mem_map, ← List.mem_map, hfields]
  rw [Bool.eq_iff_iff, RequiredCookie.isPresentedIn_iff, RequiredCookie.isPresentedIn_iff]
  constructor
  · intro h
    rcases h with ⟨hname, header, hheader, hvisible, hcookie⟩
    rcases List.mem_map.mp hheader with ⟨value, hvalue, rfl⟩
    exact ⟨hname, value, hvalue, visible_trimBlanks.mp hvisible, (hin value).mp hcookie⟩
  · intro h
    rcases h with ⟨hname, value, hvalue, hvisible, hcookie⟩
    exact ⟨hname, trimBlanks value, List.mem_map_of_mem hvalue, visible_trimBlanks.mpr hvisible,
      (hin value).mpr hcookie⟩

/-!
## Messages
-/

/-- A request's URI; no path in the authority form. -/
structure RequestUri where
  scheme : Option String
  authority : Option String
  pathAndQuery : Option String
  deriving DecidableEq, Repr

structure HttpRequest where
  method : String
  uri : RequestUri
  headers : HeaderMap
  body : List UInt8

structure HttpResponse where
  status : Nat
  headers : HeaderMap
  body : List UInt8

/-- One request for each stream: the connection is closed after it, unless it is upgraded. -/
def rewriteHeaders (headers : HeaderMap) : HeaderMap :=
  let upgrade := isProtocolUpgradeRequest headers
  let stripped := stripHopByHopHeaders headers upgrade
  if upgrade then stripped else stripped.insert "connection" (utf8 "close")

/-- A response on its way back; a 101 has no body. -/
def rewriteResponse (strip : HeaderMap -> Bool -> HeaderMap) (resp : HttpResponse) : HttpResponse :=
  if resp.status = 101 then { resp with headers := strip resp.headers true, body := [] }
  else { resp with headers := strip resp.headers false }

theorem isProtocolUpgradeRequest_congr {headers headers' : HeaderMap}
    (h : forall name, name ∈ handshakeNames -> headers.getAll name = headers'.getAll name) :
    isProtocolUpgradeRequest headers = isProtocolUpgradeRequest headers' := by
  have hconnection := h "connection" (by decide)
  have hupgrade := h "upgrade" (by decide)
  unfold isProtocolUpgradeRequest connectionListsUpgrade HeaderMap.connectionLists
    HeaderMap.containsKey HeaderMap.get
  rw [hconnection, hupgrade]

/-- The headers of a rewritten request. -/
theorem getAll_rewriteHeaders (headers : HeaderMap) (name : String) :
    (rewriteHeaders headers).getAll name =
      if name ∈ hopByHopNames then []
      else if isProtocolUpgradeRequest headers = true ∨ name ∉ handshakeNames then
        headers.getAll name
      else if name = "connection" then [utf8 "close"] else [] := by
  have hclose : "connection" ∉ hopByHopNames ∧ "connection" ∈ handshakeNames := by decide
  unfold rewriteHeaders stripHopByHopHeaders
  simp only
  cases hupgrade : isProtocolUpgradeRequest headers with
  | true =>
      simp [HeaderMap.getAll_withoutHop]
  | false =>
      simp only [Bool.false_eq_true, if_false, HeaderMap.getAll_insert,
        HeaderMap.getAll_withoutHop, true_and, false_or]
      by_cases hname : name = "connection"
      · rw [if_pos hname, if_neg (hname ▸ hclose.left),
          if_neg (fun hnot => hnot (hname ▸ hclose.right)), if_pos hname]
      · rw [if_neg hname]
        by_cases hhop : name ∈ hopByHopNames
        · rw [if_pos (Or.inl hhop), if_pos hhop]
        · rw [if_neg hhop]
          by_cases hhandshake : name ∈ handshakeNames
          · rw [if_pos (Or.inr hhandshake), if_neg (not_not_intro hhandshake), if_neg hname]
          · rw [if_neg (fun h => h.elim hhop hhandshake), if_pos hhandshake]

/-!
## What arrives at the other end of a connection
-/

/-- What carries a message's headers over one connection; nothing arrives where it breaks.  It sets
some of the headers itself, the others arrive in their order, without the blanks around them. -/
structure Carriage (own : List String) where
  carry : HeaderMap -> Option HeaderMap
  carried : forall sent arrived name, carry sent = some arrived -> name ∉ own ->
    arrived.getAll name = (sent.getAll name).map trimBlanks

/-- What a connection sets in requests. -/
def requestFraming : List String :=
  ["content-length", "transfer-encoding"]

/-- What a connection sets in responses. -/
def responseFraming : List String :=
  ["connection", "content-length", "date", "transfer-encoding"]

/-- A request asks for an upgrade at one end of a connection if it does at the other. -/
theorem Carriage.upgrade (c : Carriage requestFraming) {sent arrived : HeaderMap}
    (h : c.carry sent = some arrived) :
    isProtocolUpgradeRequest arrived = isProtocolUpgradeRequest sent := by
  have hconnection := c.carried sent arrived "connection" h (by decide)
  have hupgrade := c.carried sent arrived "upgrade" h (by decide)
  unfold isProtocolUpgradeRequest connectionListsUpgrade
  rw [connectionLists_of_trimmed hconnection]
  unfold HeaderMap.containsKey HeaderMap.get
  rw [hupgrade, List.head?_map, Option.isSome_map]

end Guest
end WispersAccess
