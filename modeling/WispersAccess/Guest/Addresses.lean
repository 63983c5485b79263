import WispersAccess.Foundation.Texts
import WispersAccess.Guest.Labels

/-!
# Addresses of apps

Every app of a share has an address of its own under the proxy's domain,
`http://<app>.<share>.wa.localhost:<port>`.  A browser puts the host of an
address into its request in lowercase, and the proxy reads the route off it.
-/

namespace WispersAccess
namespace Guest

open Foundation

/-- The host-routed proxy's domain. -/
def proxyDomain : String := "wa.localhost"

/-- Where a shared app is served. -/
def appOrigin (port : UInt16) (label appId : String) : String :=
  "http://" ++ appId ++ "." ++ label ++ "." ++ proxyDomain ++ ":" ++ toString port.toNat

/-!
## Browsers
-/

/-- What a browser asks a server for. -/
structure BrowserRequest where
  /-- The `Host` header. -/
  host : String
  path : String
  query : Option String
  deriving DecidableEq, Repr

/-- Browsers send hosts in lowercase, and leave the default port out. -/
def hostHeader (authority : List Char) : String :=
  match rsplitOnce ':' authority with
  | some (host, port) =>
      if port = ['8', '0'] then asciiLowercase (String.ofList host)
      else asciiLowercase (String.ofList authority)
  | none => asciiLowercase (String.ofList authority)

def BrowserRequest.ofTarget (authority target : List Char) : BrowserRequest :=
  match splitOnce '?' target with
  | none => { host := hostHeader authority, path := String.ofList target, query := none }
  | some (path, query) =>
      { host := hostHeader authority, path := String.ofList path
        query := some (String.ofList query) }

/-- The request for an `http` URL without user information and without a fragment. -/
def browserRequest (url : String) : Option BrowserRequest :=
  (url.toList.dropPrefix? "http://".toList).map fun rest =>
    match splitOnce '/' rest with
    | none => BrowserRequest.ofTarget rest ['/']
    | some (authority, target) => BrowserRequest.ofTarget authority ('/' :: target)

/-!
## Routes
-/

/-- Where a request goes, as its `Host` header says. -/
inductive Route where
  /-- `<app>.<share>.wa.localhost`, an app of a share. -/
  | app (share app : String)
  /-- `wa.localhost` itself, the proxy's own pages. -/
  | proxy
  deriving DecidableEq, Repr

/-- The host without its port. -/
def stripPort (host : List Char) : List Char :=
  match rsplitOnce ':' host with
  | none => host
  | some (h, port) => if port.all Char.isDigit then h else host

/-- `<app>.<share>.wa.localhost[:port]` or `wa.localhost[:port]`. -/
def parseHost (host : String) : Option Route :=
  let name := stripPort host.toList
  if name = proxyDomain.toList then some Route.proxy
  else
    match ((name.dropSuffix? proxyDomain.toList).bind fun front => front.dropSuffix? ['.']).map
        fun front => front.splitOn '.' with
    | some [app, share] =>
        if app ≠ [] ∧ share ≠ [] then some (Route.app (String.ofList share) (String.ofList app))
        else none
    | _ => none

/-!
## Ports
-/

/-- The port as it stands in a `Host` header. -/
def portSuffix (port : UInt16) : String :=
  if port = 80 then "" else ":" ++ toString port.toNat

theorem isDigit_ne_colon {c : Char} (h : c.isDigit = true) : c ≠ ':' := by
  intro heq
  subst heq
  cases h

theorem colon_not_mem_digits (n : Nat) : ':' ∉ Nat.toDigits 10 n :=
  fun hmem => isDigit_ne_colon (isDigit_of_mem_toDigits hmem) rfl

theorem toList_toString (n : Nat) : (toString n).toList = Nat.toDigits 10 n := by
  rw [Nat.toString_eq_ofList_toDigits, String.toList_ofList]

theorem toLower_of_isDigit {c : Char} (h : c.isDigit = true) : c.toLower = c := by
  have hall : forall c : Char, c.toNat < 128 -> c.isDigit = true -> c.toLower = c :=
    forall_ascii (by decide)
  exact hall c (ascii_of_isDigit h) h

theorem asciiLowercase_append (s t : String) :
    asciiLowercase (s ++ t) = asciiLowercase s ++ asciiLowercase t := by
  unfold asciiLowercase
  rw [String.toList_append, List.map_append, String.ofList_append]

theorem asciiLowercase_toString (n : Nat) : asciiLowercase (toString n) = toString n := by
  unfold asciiLowercase
  rw [toList_toString, List.map_congr_left fun c hc =>
    toLower_of_isDigit (isDigit_of_mem_toDigits hc), List.map_id', Nat.toString_eq_ofList_toDigits]

theorem digits_eq_eighty {port : UInt16} :
    Nat.toDigits 10 port.toNat = ['8', '0'] <-> port = 80 := by
  constructor
  · intro h
    have heighty : Nat.toDigits 10 80 = ['8', '0'] := by decide
    have htext : toString port.toNat = toString 80 := by
      rw [Nat.toString_eq_ofList_toDigits, Nat.toString_eq_ofList_toDigits, h, heighty]
    exact UInt16.toNat_inj.mp (toString_nat_injective htext)
  · intro heq
    subst heq
    decide

/-- A host with its port written out. -/
theorem hostHeader_with_port (name : String) (port : UInt16) :
    hostHeader (name.toList ++ ':' :: Nat.toDigits 10 port.toNat) =
      asciiLowercase name ++ portSuffix port := by
  unfold hostHeader portSuffix
  rw [rsplitOnce_append (colon_not_mem_digits _)]
  simp only [digits_eq_eighty]
  split
  · rw [String.ofList_toList, String.append_empty]
  · have hwhole : String.ofList (name.toList ++ ':' :: Nat.toDigits 10 port.toNat) =
        name ++ (":" ++ toString port.toNat) := by
      rw [← String.toList_inj]
      simp
    have hcolon : asciiLowercase ":" = ":" := by decide
    rw [hwhole, asciiLowercase_append, asciiLowercase_append, hcolon, asciiLowercase_toString]

theorem toList_with_suffix (name : String) (port : UInt16) :
    (name ++ portSuffix port).toList =
      if port = 80 then name.toList else name.toList ++ ':' :: Nat.toDigits 10 port.toNat := by
  unfold portSuffix
  split
  · rw [String.append_empty]
  · simp

/-- A host as it stands in a `Host` header. -/
theorem hostHeader_with_suffix {name : String} (h : ':' ∉ name.toList) (port : UInt16) :
    hostHeader (name ++ portSuffix port).toList = asciiLowercase name ++ portSuffix port := by
  rw [toList_with_suffix]
  split
  · rename_i hport
    unfold hostHeader portSuffix
    rw [rsplitOnce_eq_none_iff.mpr h, if_pos hport, String.append_empty]
    simp
  · exact hostHeader_with_port name port

theorem stripPort_with_suffix {name : String} (h : ':' ∉ name.toList) (port : UInt16) :
    stripPort (name ++ portSuffix port).toList = name.toList := by
  have hdigits : (Nat.toDigits 10 port.toNat).all Char.isDigit = true :=
    List.all_eq_true.mpr fun c hc => isDigit_of_mem_toDigits hc
  rw [toList_with_suffix]
  unfold stripPort
  by_cases hport : port = 80
  · rw [if_pos hport, rsplitOnce_eq_none_iff.mpr h]
  · rw [if_neg hport, rsplitOnce_append (colon_not_mem_digits _)]
    simp only [hdigits, if_true]

/-!
## Addresses and routes
-/

/-- The host of an app's address. -/
def appHost (app share : String) : String :=
  app ++ "." ++ share ++ "." ++ proxyDomain

theorem appOrigin_eq (port : UInt16) (label appId : String) :
    appOrigin port label appId =
      "http://" ++ (appHost appId label ++ ":" ++ toString port.toNat) := by
  unfold appOrigin appHost
  simp only [String.append_assoc]

theorem toList_appHost (app share : String) :
    (appHost app share).toList =
      (app.toList ++ '.' :: share.toList) ++ '.' :: proxyDomain.toList := by
  unfold appHost
  simp

theorem appHost_ne_proxyDomain (app share : String) :
    (appHost app share).toList ≠ proxyDomain.toList := by
  intro heq
  have hlength := congrArg List.length heq
  rw [toList_appHost] at hlength
  simp only [List.length_append, List.length_cons] at hlength
  omega

/-- An app's host without its port leads to the app and the share it names. -/
theorem parseHost_of_name {host app share : String}
    (hname : stripPort host.toList = (appHost app share).toList) (happ : app ≠ "")
    (hshare : share ≠ "") (happdot : '.' ∉ app.toList) (hsharedot : '.' ∉ share.toList) :
    parseHost host = some (Route.app share app) := by
  have hfront : (appHost app share).toList.dropSuffix? proxyDomain.toList =
      some (app.toList ++ '.' :: share.toList ++ ['.']) := by
    rw [List.dropSuffix?_eq_some_iff]
    refine ⟨proxyDomain.toList, ?_, BEq.rfl⟩
    rw [toList_appHost]
    simp
  have hnames : (app.toList ++ '.' :: share.toList ++ ['.']).dropSuffix? ['.'] =
      some (app.toList ++ '.' :: share.toList) := by
    rw [List.dropSuffix?_eq_some_iff]
    exact ⟨['.'], rfl, BEq.rfl⟩
  have hsplit : (app.toList ++ '.' :: share.toList).splitOn '.' = [app.toList, share.toList] := by
    rw [List.splitOn_append_cons_self_of_not_mem happdot, List.splitOn_eq_singleton hsharedot]
  have hnonempty : app.toList ≠ [] ∧ share.toList ≠ [] := by
    constructor
    · exact fun h => happ (String.toList_eq_nil_iff.mp h)
    · exact fun h => hshare (String.toList_eq_nil_iff.mp h)
  unfold parseHost
  simp only [hname, if_neg (appHost_ne_proxyDomain app share), hfront, Option.bind_some, hnames,
    Option.map_some, hsplit, if_pos hnonempty, String.ofList_toList]

theorem parseHost_proxyDomain (port : UInt16) :
    parseHost (proxyDomain ++ portSuffix port) = some Route.proxy := by
  have hcolon : ':' ∉ proxyDomain.toList := by decide
  unfold parseHost
  simp only [stripPort_with_suffix hcolon, if_true]

/-- The route of an address leads to the app and the share it names. -/
theorem parseHost_appHost {app share : String} (happ : app ≠ "") (hshare : share ≠ "")
    (happdot : '.' ∉ app.toList) (hsharedot : '.' ∉ share.toList)
    (happcolon : ':' ∉ app.toList) (hsharecolon : ':' ∉ share.toList) (port : UInt16) :
    parseHost (appHost app share ++ portSuffix port) = some (Route.app share app) := by
  have hcolon : ':' ∉ (appHost app share).toList := by
    have hdomain : ':' ∉ proxyDomain.toList := by decide
    rw [toList_appHost]
    simp [happcolon, hsharecolon, hdomain]
  exact parseHost_of_name (stripPort_with_suffix hcolon port) happ hshare happdot hsharedot

/-!
## The host grammar
-/

/-- The port of a request's own host: nothing, or a colon and digits. -/
def IsPort (port : String) : Prop :=
  port = "" ∨ exists digits : List Char, (forall c, c ∈ digits -> c.isDigit = true) ∧
    port = ":" ++ String.ofList digits

/-- What is taken off the end of a host is a port. -/
theorem exists_port (host : String) :
    exists port, IsPort port ∧ host = String.ofList (stripPort host.toList) ++ port := by
  have hwhole : host = String.ofList host.toList ++ "" := by
    rw [String.ofList_toList, String.append_empty]
  unfold stripPort
  split
  · exact ⟨"", Or.inl rfl, hwhole⟩
  · rename_i name digits hsplit
    split
    · rename_i hdigits
      refine ⟨":" ++ String.ofList digits, Or.inr ⟨digits, List.all_eq_true.mp hdigits, rfl⟩, ?_⟩
      rw [← String.toList_inj, (rsplitOnce_some hsplit).left]
      simp
    · exact ⟨"", Or.inl rfl, hwhole⟩

/-- A name that ends in no digit and no colon is not taken for one with a port. -/
theorem stripPort_eq_self {name : List Char} {last : Char} (hlast : name.getLast? = some last)
    (hcolon : last ≠ ':') (hdigit : last.isDigit = false) : stripPort name = name := by
  unfold stripPort
  split
  · rfl
  · rename_i front port hsplit
    have hname := (rsplitOnce_some hsplit).left
    have hport : port.all Char.isDigit = false := by
      rw [hname, List.getLast?_append, List.getLast?_cons] at hlast
      cases hend : port.getLast? with
      | none =>
          rw [hend] at hlast
          exact absurd (Option.some.inj hlast).symm hcolon
      | some c =>
          rw [hend] at hlast
          rw [List.all_eq_false]
          refine ⟨c, List.mem_of_getLast? hend, ?_⟩
          have hc : c = last := Option.some.inj hlast
          rw [hc, hdigit]
          nofun
    rw [hport]
    rfl

theorem stripPort_append {name port : String} {last : Char}
    (hlast : name.toList.getLast? = some last) (hcolon : last ≠ ':')
    (hdigit : last.isDigit = false) (hport : IsPort port) :
    stripPort (name ++ port).toList = name.toList := by
  rcases hport with rfl | ⟨digits, hdigits, rfl⟩
  · rw [String.append_empty]
    exact stripPort_eq_self hlast hcolon hdigit
  · have hnot : ':' ∉ digits := fun hmem => isDigit_ne_colon (hdigits ':' hmem) rfl
    have hlist : (name ++ (":" ++ String.ofList digits)).toList = name.toList ++ ':' :: digits := by
      simp
    unfold stripPort
    rw [hlist, rsplitOnce_append hnot]
    simp only [List.all_eq_true.mpr hdigits, if_true]

/-- Names under the proxy's domain end in a letter. -/
theorem stripPort_appHost {app share port : String} (hport : IsPort port) :
    stripPort (appHost app share ++ port).toList = (appHost app share).toList := by
  have hlast : (appHost app share).toList.getLast? = some 't' := by
    have hdomain : proxyDomain.toList.getLast? = some 't' := by decide
    rw [toList_appHost, List.getLast?_append, List.getLast?_cons, hdomain]
    rfl
  exact stripPort_append hlast (by decide) (by decide) hport

theorem parseHost_eq_proxy_iff {host : String} :
    parseHost host = some Route.proxy <->
      exists port, IsPort port ∧ host = proxyDomain ++ port := by
  constructor
  · intro h
    have hname : stripPort host.toList = proxyDomain.toList := by
      unfold parseHost at h
      simp only at h
      split at h
      · assumption
      · split at h
        · split at h <;> cases h
        · cases h
    rcases exists_port host with ⟨port, hport, hhost⟩
    rw [hname, String.ofList_toList] at hhost
    exact ⟨port, hport, hhost⟩
  · intro h
    rcases h with ⟨port, hport, rfl⟩
    have hlast : proxyDomain.toList.getLast? = some 't' := by decide
    unfold parseHost
    rw [stripPort_append hlast (by decide) (by decide) hport]
    rfl

theorem parseHost_eq_proxy {host : String} (h : parseHost host = some Route.proxy) :
    exists port, IsPort port ∧ host = proxyDomain ++ port :=
  parseHost_eq_proxy_iff.mp h

/-- An app's route is read off a name of two labels under the domain. -/
theorem name_of_parseHost {host app share : String}
    (h : parseHost host = some (Route.app share app)) :
    stripPort host.toList = (appHost app share).toList ∧
      (app ≠ "" ∧ '.' ∉ app.toList) ∧ share ≠ "" ∧ '.' ∉ share.toList := by
  unfold parseHost at h
  simp only at h
  split at h
  · cases h
  · split at h
    · rename_i first second hlabels
      split at h
      · rename_i hnonempty
        cases h
        rcases Option.map_eq_some_iff.mp hlabels with ⟨front, hfront, hsplit⟩
        rcases Option.bind_eq_some_iff.mp hfront with ⟨dotted, hdotted, hdot⟩
        rcases List.dropSuffix?_eq_some_iff.mp hdotted with ⟨domain, hname, hdomain⟩
        rcases List.dropSuffix?_eq_some_iff.mp hdot with ⟨dot, hlast, hisdot⟩
        rw [eq_of_beq hisdot] at hlast
        rw [eq_of_beq hdomain, hlast] at hname
        have hjoined : ['.'].intercalate (front.splitOn '.') = front :=
          List.intercalate_splitOn '.'
        have hlabel : forall label, label ∈ [first, second] -> '.' ∉ label := by
          intro label hmem
          rw [← hsplit] at hmem
          exact not_mem_of_mem_splitOn hmem
        rw [hsplit, List.intercalate_cons_cons, List.intercalate_singleton] at hjoined
        rw [← hjoined] at hname
        refine ⟨?_, ⟨?_, ?_⟩, ?_, ?_⟩
        · rw [hname, toList_appHost]
          simp
        · exact fun hempty => hnonempty.left (String.ofList_eq_empty_iff.mp hempty)
        · rw [String.toList_ofList]
          exact hlabel first List.mem_cons_self
        · exact fun hempty => hnonempty.right (String.ofList_eq_empty_iff.mp hempty)
        · rw [String.toList_ofList]
          exact hlabel second (List.mem_cons_of_mem _ List.mem_cons_self)
      · cases h
    · cases h

theorem parseHost_eq_app_iff {host app share : String} :
    parseHost host = some (Route.app share app) <->
      ((app ≠ "" ∧ '.' ∉ app.toList) ∧ share ≠ "" ∧ '.' ∉ share.toList) ∧
        exists port, IsPort port ∧ host = appHost app share ++ port := by
  constructor
  · intro h
    rcases name_of_parseHost h with ⟨hname, hlabels⟩
    rcases exists_port host with ⟨port, hport, hhost⟩
    rw [hname, String.ofList_toList] at hhost
    exact ⟨hlabels, port, hport, hhost⟩
  · intro h
    rcases h with ⟨⟨⟨happ, happdot⟩, hshare, hsharedot⟩, port, hport, rfl⟩
    exact parseHost_of_name (stripPort_appHost hport) happ hshare happdot hsharedot

/-- A host is the proxy's own, or an app's, by what it is made of, and any other is an error. -/
theorem parseHost_grammar (host : String) :
    (parseHost host = some Route.proxy <->
      exists port, IsPort port ∧ host = proxyDomain ++ port) ∧
    (forall share app, parseHost host = some (Route.app share app) <->
      ((app ≠ "" ∧ '.' ∉ app.toList) ∧ share ≠ "" ∧ '.' ∉ share.toList) ∧
        exists port, IsPort port ∧ host = app ++ "." ++ share ++ "." ++ proxyDomain ++ port) ∧
    (parseHost host = none <->
      (¬ exists port, IsPort port ∧ host = proxyDomain ++ port) ∧
      ¬ exists share app,
        ((app ≠ "" ∧ '.' ∉ app.toList) ∧ share ≠ "" ∧ '.' ∉ share.toList) ∧
          exists port, IsPort port ∧
            host = app ++ "." ++ share ++ "." ++ proxyDomain ++ port) := by
  refine ⟨parseHost_eq_proxy_iff, fun share app => parseHost_eq_app_iff, ?_⟩
  constructor
  · intro hnone
    constructor
    · intro hproxy
      rw [parseHost_eq_proxy_iff.mpr hproxy] at hnone
      cases hnone
    · intro hroute
      rcases hroute with ⟨share, app, happ⟩
      rw [parseHost_eq_app_iff.mpr happ] at hnone
      cases hnone
  · intro hother
    rcases hother with ⟨hproxy, happ⟩
    cases hroute : parseHost host with
    | none => rfl
    | some route =>
        cases route with
        | proxy => exact absurd (parseHost_eq_proxy_iff.mp hroute) hproxy
        | app share app => exact absurd ⟨share, app, parseHost_eq_app_iff.mp hroute⟩ happ

example : parseHost "a:b.s.wa.localhost:" = some (Route.app "s" "a:b") := by decide +kernel

/-- A URL that names no path asks for the root. -/
theorem browserRequest_root {authority : String} (h : '/' ∉ authority.toList) :
    browserRequest ("http://" ++ authority) =
      some (BrowserRequest.ofTarget authority.toList ['/']) := by
  have hrest : ("http://" ++ authority).toList.dropPrefix? "http://".toList =
      some authority.toList := by
    rw [List.dropPrefix?_eq_some_iff, String.toList_append]
    exact ⟨_, rfl, BEq.rfl⟩
  unfold browserRequest
  rw [hrest, Option.map_some, splitOnce_eq_none_iff.mpr h]

theorem browserRequest_path {authority : String} (h : '/' ∉ authority.toList) (target : String) :
    browserRequest ("http://" ++ authority ++ "/" ++ target) =
      some (BrowserRequest.ofTarget authority.toList ('/' :: target.toList)) := by
  have hrest : ("http://" ++ authority ++ "/" ++ target).toList.dropPrefix? "http://".toList =
      some (authority.toList ++ '/' :: target.toList) := by
    rw [List.dropPrefix?_eq_some_iff]
    refine ⟨"http://".toList, ?_, BEq.rfl⟩
    simp
  unfold browserRequest
  rw [hrest, Option.map_some, splitOnce_append h]

theorem slash_not_mem_append {s t : String} (hs : '/' ∉ s.toList) (ht : '/' ∉ t.toList) :
    '/' ∉ (s ++ t).toList := by
  rw [String.toList_append, List.mem_append]
  exact fun h => h.elim hs ht

theorem slash_not_mem_toString (n : Nat) : '/' ∉ (toString n).toList := by
  rw [Nat.toString_eq_ofList_toDigits, String.toList_ofList]
  intro hmem
  cases isDigit_of_mem_toDigits hmem

theorem slash_not_mem_appHost {app label : String} (happ : '/' ∉ app.toList)
    (hlabel : '/' ∉ label.toList) : '/' ∉ (appHost app label).toList := by
  unfold appHost
  exact slash_not_mem_append (slash_not_mem_append (slash_not_mem_append
    (slash_not_mem_append happ (by decide)) hlabel) (by decide)) (by decide)

/-- What a browser asks for at an app's address. -/
theorem browserRequest_appOrigin {app label : String} (happ : '/' ∉ app.toList)
    (hlabel : '/' ∉ label.toList) (port : UInt16) :
    browserRequest (appOrigin port label app) =
      some { host := asciiLowercase (appHost app label) ++ portSuffix port, path := "/"
             query := none } := by
  have hauthority := slash_not_mem_append (slash_not_mem_append (slash_not_mem_appHost happ hlabel)
    (by decide : '/' ∉ ":".toList)) (slash_not_mem_toString port.toNat)
  have hlist : (appHost app label ++ ":" ++ toString port.toNat).toList =
      (appHost app label).toList ++ ':' :: Nat.toDigits 10 port.toNat := by
    simp
  rw [appOrigin_eq, browserRequest_root hauthority, hlist]
  unfold BrowserRequest.ofTarget
  rw [hostHeader_with_port]
  rfl

end Guest
end WispersAccess
