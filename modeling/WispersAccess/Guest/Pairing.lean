import WispersAccess.Guest.AppAddresses

/-!
# Pairing a browser

In pairing mode a browser is sent to the proxy's own host first, with a one-time
token and the share and the app it is to open.  The proxy answers with its cookie
and a redirect to the app's address.
-/

namespace WispersAccess
namespace Guest

open Foundation
open Wire (UrlParser utf8)
open Host (AppConfig ConfigCrates ShareConfig isIdChar isValidId)

/-!
## Secrets and cookies
-/

def isHexChar (c : Char) : Bool :=
  ('0' ≤ c && c ≤ '9') || ('a' ≤ c && c ≤ 'f')

/-- 32 random bytes in hexadecimal. -/
structure MintedSecret where
  text : String
  minted : (text.toList.length = 64 && text.toList.all isHexChar) = true
  deriving DecidableEq, Repr

/-- Whether two secrets are equal, by all of their bytes. -/
def constantTimeEq (a b : String) : Bool :=
  if (utf8 a).length ≠ (utf8 b).length then false
  else ((utf8 a).zip (utf8 b)).foldl (fun diff p => diff ||| (p.1 ^^^ p.2)) 0 == 0

/-- A cookie that requests have to carry. -/
structure RequiredCookie where
  name : String
  value : String
  deriving DecidableEq, Repr

/-- The text of a header value, if it is visible ASCII. -/
def headerText (value : List UInt8) : Option String :=
  if value.all fun b => b = 9 || (32 ≤ b && b < 127) then
    some (String.ofList (value.map fun b => Char.ofNat b.toNat))
  else none

/-- Whether one of the `Cookie` headers carries the cookie. -/
def RequiredCookie.isPresentedIn (cookie : RequiredCookie) (headers : List (List UInt8)) : Bool :=
  let pairs := (headers.filterMap headerText).flatMap fun v => v.toList.splitOn ';'
  (pairs.filterMap fun pair => splitOnce '=' (trim (String.ofList pair)).toList).any
    fun p => p.1 = cookie.name.toList && p.2 = cookie.value.toList

/-- Issues the proxy's cookie to the user's browsers. -/
structure CookieIssuer where
  secret : MintedSecret
  /-- What the cookie's name says about the client: the start of a hash of its secret. -/
  tag : String
  tag_chars : tag.toList.all isHexChar = true
  /-- How long a token stays usable once minted. -/
  tokenLifetime : Nat
  /-- The last instant the clock can show. -/
  endOfTime : Nat
  /-- Each unused token with its expiry, or nothing for one that never expires. -/
  tokens : List (MintedSecret × Option Nat)

namespace CookieIssuer

/-- The cookie a paired browser sends and the proxy demands. -/
def requiredCookie (issuer : CookieIssuer) : RequiredCookie where
  name := "__wispers_access_pairing_" ++ issuer.tag
  value := issuer.secret.text

/-- `checked_add`: nothing for an instant past the end of time. -/
def checkedAdd (issuer : CookieIssuer) (now lifetime : Nat) : Option Nat :=
  if now + lifetime ≤ issuer.endOfTime then some (now + lifetime) else none

def unexpired (now : Nat) (expiry : Option Nat) : Bool :=
  match expiry with
  | none => true
  | some e => now < e

/-- A fresh one-time token; those nobody used go when the next one is minted. -/
def mintToken (issuer : CookieIssuer) (now : Nat) (token : MintedSecret) : CookieIssuer :=
  { issuer with
    tokens := (issuer.tokens.filter fun t => unexpired now t.2 && t.1 ≠ token) ++
      [(token, issuer.checkedAdd now issuer.tokenLifetime)] }

/-- Whether a token is one we minted, unused and unexpired.  Either way it is spent now. -/
def consumeToken (issuer : CookieIssuer) (now : Nat) (token : String) : Bool × CookieIssuer :=
  match issuer.tokens.find? fun t => t.1.text = token with
  | none => (false, issuer)
  | some (minted, expiry) =>
      (unexpired now expiry,
        { issuer with tokens := issuer.tokens.filter fun t => t.1 ≠ minted })

/-- The `Set-Cookie` value that pairs a browser. -/
def setCookieHeader (issuer : CookieIssuer) : String :=
  issuer.requiredCookie.name ++ "=" ++ issuer.requiredCookie.value ++ "; Domain=" ++ proxyDomain ++
    "; Path=/; Max-Age=31536000; HttpOnly; SameSite=Lax"

end CookieIssuer

/-!
## Answers
-/

inductive PairAnswer where
  | redirect (location : String) (setCookie : Option String)
  | error (status : Nat) (msg : String)
  /-- The 403 for a browser the proxy does not know. -/
  | notPairedPage
  deriving DecidableEq, Repr

/-- The pairing URL for a given token and app. -/
def pairUrl (port : UInt16) (token share app : String) : String :=
  "http://" ++ proxyDomain ++ ":" ++ toString port.toNat ++ "/pair?token=" ++ token ++
    "&share=" ++ share ++ "&app=" ++ app

/-- Where to send the browser for a given shared app: the pairing endpoint in pairing mode, the
app's address otherwise. -/
def browseUrl (issuer : Option CookieIssuer) (now : Nat) (token : MintedSecret) (port : UInt16)
    (label appId : String) : String × Option CookieIssuer :=
  match issuer with
  | some issuer => (pairUrl port token.text label appId, some (issuer.mintToken now token))
  | none => (appOrigin port label appId, none)

/-- The query's `name=value` pairs, without decoding them. -/
def parseQuery (query : String) : List (String × String) :=
  (query.toList.splitOn '&').filterMap fun pair =>
    (splitOnce '=' pair).map fun p => (String.ofList p.1, String.ofList p.2)

/-- Of several pairs of one name the last one counts. -/
def param (name : String) (params : List (String × String)) : Option String :=
  (params.reverse.find? fun p => p.1 = name).map Prod.snd

/-- Can be used as a hostname label. -/
def isDnsLabel (s : String) : Bool :=
  s ≠ "" && byteLen s ≤ 63 && s.toList.all fun c => c.isAlphanum || c == '-'

def isHeaderChar (c : Char) : Bool :=
  c = '\t' || (32 ≤ c.toNat && c.toNat ≠ 127)

/-- A 302 to `location`. -/
def redirect (location : String) (setCookie : Option String) : PairAnswer :=
  if location.toList.all isHeaderChar && setCookie.all fun cookie => cookie.toList.all isHeaderChar
  then PairAnswer.redirect location setCookie
  else PairAnswer.error 400 "invalid path"

/-- Answer `GET /pair?token=…&share=…&app=…[&path=…]`. -/
def answerPair (issuer : CookieIssuer) (now : Nat) (req : BrowserRequest)
    (cookies : List (List UInt8)) : PairAnswer × CookieIssuer :=
  let params := parseQuery (req.query.getD "")
  match param "share" params, param "app" params with
  | some share, some app =>
      if !isDnsLabel share || !isDnsLabel app then
        (PairAnswer.error 400 "invalid share or app", issuer)
      else
        let path := (param "path" params).getD "/"
        if path.toList.head? ≠ some '/' then (PairAnswer.error 400 "path must be absolute", issuer)
        else
          let location := "http://" ++ app ++ "." ++ share ++ "." ++ req.host ++ path
          if issuer.requiredCookie.isPresentedIn cookies then (redirect location none, issuer)
          else
            match param "token" params with
            | none => (PairAnswer.notPairedPage, issuer)
            | some token =>
                let (live, issuer') := issuer.consumeToken now token
                if live then (redirect location (some issuer.setCookieHeader), issuer')
                else (PairAnswer.notPairedPage, issuer')
  | _, _ => (PairAnswer.error 400 "missing share or app", issuer)

/-- A request to the proxy's own host: pairing, and nothing else. -/
def answerOwnHost (issuer : CookieIssuer) (now : Nat) (req : BrowserRequest)
    (cookies : List (List UInt8)) : PairAnswer × CookieIssuer :=
  if req.path = "/pair" then answerPair issuer now req cookies
  else
    (PairAnswer.error 404 ("apps are served at http://<app>.<share>." ++ proxyDomain ++ ":<port>"),
      issuer)

/-!
## Equal secrets
-/

theorem foldl_xor_eq_zero_iff {pairs : List (UInt8 × UInt8)} {diff : UInt8} :
    pairs.foldl (fun diff p => diff ||| (p.1 ^^^ p.2)) diff = 0 <->
      diff = 0 ∧ forall p, p ∈ pairs -> p.1 = p.2 := by
  induction pairs generalizing diff with
  | nil => simp
  | cons p rest ih =>
      rw [List.foldl_cons, ih, UInt8.or_eq_zero_iff, UInt8.xor_eq_zero_iff, List.forall_mem_cons,
        and_assoc]

theorem eq_of_zip_eq {xs ys : List UInt8} (hlength : xs.length = ys.length)
    (h : forall p, p ∈ xs.zip ys -> p.1 = p.2) : xs = ys := by
  induction xs generalizing ys with
  | nil => exact (List.eq_nil_of_length_eq_zero hlength.symm).symm
  | cons x xs ih =>
      cases ys with
      | nil => cases hlength
      | cons y ys =>
          rw [List.zip_cons_cons, List.forall_mem_cons] at h
          rw [show x = y from h.left, ih (Nat.succ.inj hlength) h.right]

@[simp] theorem constantTimeEq_iff {a b : String} : constantTimeEq a b = true <-> a = b := by
  unfold constantTimeEq
  constructor
  · intro h
    split at h
    · cases h
    · rename_i hlength
      rw [beq_iff_eq, foldl_xor_eq_zero_iff] at h
      exact Wire.utf8_injective (eq_of_zip_eq (not_not.mp hlength) h.right)
  · intro heq
    subst heq
    rw [if_neg (fun h => h rfl), beq_iff_eq, foldl_xor_eq_zero_iff]
    constructor
    · rfl
    · intro p hp
      rcases List.mem_iff_getElem.mp hp with ⟨i, hi, rfl⟩
      rw [List.getElem_zip]

/-!
## The request
-/

theorem MintedSecret.chars (secret : MintedSecret) :
    forall c, c ∈ secret.text.toList -> isHexChar c = true := by
  have hminted := secret.minted
  rw [Bool.and_eq_true, List.all_eq_true] at hminted
  exact hminted.right

theorem isHexChar_spec {c : Char} (h : isHexChar c = true) : c ≠ '&' ∧ isHeaderChar c = true := by
  have hascii : c.toNat < 128 := by
    unfold isHexChar at h
    simp only [Bool.or_eq_true, Bool.and_eq_true, decide_eq_true_eq] at h
    rcases h with ⟨-, hle⟩ | ⟨-, hle⟩
    · exact Nat.lt_of_le_of_lt hle (by decide)
    · exact Nat.lt_of_le_of_lt hle (by decide)
  have hall : forall c : Char, c.toNat < 128 -> isHexChar c = true ->
      c ≠ '&' ∧ isHeaderChar c = true :=
    forall_ascii (by decide)
  exact hall c hascii h

theorem isIdChar_spec {c : Char} (h : isIdChar c = true) : c ≠ '&' ∧ isHeaderChar c = true := by
  have hall : forall c : Char, c.toNat < 128 -> isIdChar c = true ->
      c ≠ '&' ∧ isHeaderChar c = true :=
    forall_ascii (by decide)
  exact hall c (Host.ascii_of_isIdChar h) h

theorem isSlugChar_header {c : Char} (h : isSlugChar c = true) :
    c ≠ '&' ∧ isHeaderChar c = true ∧ (c.isAlphanum || c == '-') = true := by
  have hall : forall c : Char, c.toNat < 128 -> isSlugChar c = true ->
      c ≠ '&' ∧ isHeaderChar c = true ∧ (c.isAlphanum || c == '-') = true :=
    forall_ascii (by decide)
  exact hall c (Nat.lt_succ_of_le (ascii_of_isSlugChar h)) h

/-- The query of a pairing URL reads back as its three parameters. -/
theorem parseQuery_pair {token share app : String} (htoken : '&' ∉ token.toList)
    (hshare : '&' ∉ share.toList) (happ : '&' ∉ app.toList) :
    parseQuery ("token=" ++ token ++ "&share=" ++ share ++ "&app=" ++ app) =
      [("token", token), ("share", share), ("app", app)] := by
  have hlist : ("token=" ++ token ++ "&share=" ++ share ++ "&app=" ++ app).toList =
      ("token".toList ++ '=' :: token.toList) ++ '&' :: (("share".toList ++ '=' :: share.toList) ++
        '&' :: ("app".toList ++ '=' :: app.toList)) := by
    simp
  have hpiece : forall {name value : List Char}, '&' ∉ name -> '&' ∉ value ->
      '&' ∉ name ++ '=' :: value := by
    intro name value hname hvalue hmem
    simp [hname, hvalue] at hmem
  unfold parseQuery
  rw [hlist, List.splitOn_append_cons_self_of_not_mem (hpiece (by decide) htoken),
    List.splitOn_append_cons_self_of_not_mem (hpiece (by decide) hshare),
    List.splitOn_eq_singleton (hpiece (by decide) happ)]
  have hsplit : forall {name : List Char} (value : List Char), '=' ∉ name ->
      splitOnce '=' (name ++ '=' :: value) = some (name, value) :=
    fun value h => splitOnce_append h value
  simp only [List.filterMap_cons, List.filterMap_nil, hsplit _ (by decide : '=' ∉ "token".toList),
    hsplit _ (by decide : '=' ∉ "share".toList), hsplit _ (by decide : '=' ∉ "app".toList),
    Option.map_some, String.ofList_toList]

/-- What a browser asks for at a pairing URL. -/
theorem browserRequest_pairUrl (port : UInt16) (token share app : String) :
    browserRequest (pairUrl port token share app) =
      some { host := proxyDomain ++ portSuffix port, path := "/pair"
             query := some ("token=" ++ token ++ "&share=" ++ share ++ "&app=" ++ app) } := by
  have hauthority : '/' ∉ (proxyDomain ++ ":" ++ toString port.toNat).toList :=
    slash_not_mem_append (slash_not_mem_append (by decide) (by decide))
      (slash_not_mem_toString port.toNat)
  have hurl : pairUrl port token share app =
      "http://" ++ (proxyDomain ++ ":" ++ toString port.toNat) ++ "/" ++
        ("pair?" ++ ("token=" ++ token ++ "&share=" ++ share ++ "&app=" ++ app)) := by
    rw [← String.toList_inj]
    unfold pairUrl
    simp
  have htarget : '/' :: ("pair?" ++ ("token=" ++ token ++ "&share=" ++ share ++ "&app=" ++
        app)).toList =
      "/pair".toList ++
        '?' :: ("token=" ++ token ++ "&share=" ++ share ++ "&app=" ++ app).toList := by
    simp
  have hlist : (proxyDomain ++ ":" ++ toString port.toNat).toList =
      proxyDomain.toList ++ ':' :: Nat.toDigits 10 port.toNat := by
    simp
  have hlower : asciiLowercase proxyDomain = proxyDomain := by decide
  rw [hurl, browserRequest_path hauthority, htarget, hlist]
  unfold BrowserRequest.ofTarget
  rw [splitOnce_append (by decide), hostHeader_with_port, hlower]
  simp only [String.ofList_toList]

/-!
## The answer
-/

theorem isDnsLabel_of_isLabel {label : String} (h : IsLabel label) : isDnsLabel label = true := by
  unfold isDnsLabel
  simp only [Bool.and_eq_true, decide_eq_true_eq, List.all_eq_true]
  exact ⟨⟨h.nonempty, h.short⟩, fun c hc => (isSlugChar_header (h.chars c hc)).right.right⟩

/-- Of the ids that a config accepts, these can be labels. -/
def FitsLabel (id : String) : Prop :=
  (forall c, c ∈ id.toList -> c ≠ '_') ∧ byteLen id ≤ 63

theorem isDnsLabel_iff {id : String} (h : isValidId id = true) :
    isDnsLabel id = true <-> FitsLabel id := by
  rcases Host.isValidId_chars h with ⟨hnonempty, -, hchars⟩
  unfold isDnsLabel FitsLabel
  simp only [Bool.and_eq_true, decide_eq_true_eq, List.all_eq_true]
  constructor
  · intro hlabels
    rcases hlabels with ⟨⟨-, hshort⟩, hlabel⟩
    refine ⟨?_, hshort⟩
    intro c hc heq
    subst heq
    exact absurd (hlabel _ hc) (by decide)
  · intro hshape
    rcases hshape with ⟨hunderscore, hshort⟩
    refine ⟨⟨hnonempty, hshort⟩, ?_⟩
    intro c hc
    have hid := hchars c hc
    unfold isIdChar at hid
    simp only [Bool.or_eq_true, beq_iff_eq] at hid ⊢
    rcases hid with (halnum | hdash) | hunder
    · exact Or.inl halnum
    · exact Or.inr hdash
    · exact absurd hunder (hunderscore c hc)

/-- All characters of a text may stand in a header. -/
def HeaderText (s : String) : Prop :=
  s.toList.all isHeaderChar = true

theorem HeaderText.append {s t : String} (hs : HeaderText s) (ht : HeaderText t) :
    HeaderText (s ++ t) := by
  unfold HeaderText at *
  rw [String.toList_append, List.all_append, hs, ht]
  rfl

theorem headerText_of_hex {s : String} (h : forall c, c ∈ s.toList -> isHexChar c = true) :
    HeaderText s :=
  List.all_eq_true.mpr fun c hc => (isHexChar_spec (h c hc)).right

theorem headerText_setCookie (issuer : CookieIssuer) : HeaderText issuer.setCookieHeader := by
  have htag := headerText_of_hex (List.all_eq_true.mp issuer.tag_chars)
  have hsecret := headerText_of_hex issuer.secret.chars
  unfold CookieIssuer.setCookieHeader CookieIssuer.requiredCookie
  refine ((((HeaderText.append ?_ htag).append (rfl : HeaderText "=")).append hsecret).append
    (rfl : HeaderText "; Domain=")).append ?_ |>.append ?_
  · exact (rfl : HeaderText "__wispers_access_pairing_")
  · exact (rfl : HeaderText proxyDomain)
  · exact (rfl : HeaderText "; Path=/; Max-Age=31536000; HttpOnly; SameSite=Lax")

theorem headerText_portSuffix (port : UInt16) : HeaderText (portSuffix port) := by
  unfold portSuffix
  split
  · rfl
  · refine HeaderText.append (rfl : HeaderText ":") ?_
    refine List.all_eq_true.mpr fun c hc => ?_
    rw [Nat.toString_eq_ofList_toDigits, String.toList_ofList] at hc
    have hall : forall c : Char, c.toNat < 128 -> c.isDigit = true -> isHeaderChar c = true :=
      forall_ascii (by decide)
    exact hall c (ascii_of_isDigit (isDigit_of_mem_toDigits hc)) (isDigit_of_mem_toDigits hc)

/-- Where a paired browser is sent. -/
def pairedLocation (port : UInt16) (label appId : String) : String :=
  "http://" ++ (appHost appId label ++ portSuffix port) ++ "/" ++ ""

/-- It is sent to the app's address. -/
theorem browserRequest_pairedLocation {label appId : String} (hlabel : IsLabel label)
    (hid : isValidId appId = true) (port : UInt16) :
    browserRequest (pairedLocation port label appId) =
      browserRequest (appOrigin port label appId) := by
  have hid' := slash_not_mem_of_isValidId hid
  have hslash := slash_not_mem_appHost hid' hlabel.unseparated.slash
  have hauthority : '/' ∉ (appHost appId label ++ portSuffix port).toList := by
    refine slash_not_mem_append hslash ?_
    unfold portSuffix
    split
    · decide
    · exact slash_not_mem_append (by decide) (slash_not_mem_toString port.toNat)
  have hcolon : ':' ∉ (appHost appId label).toList := by
    have hidcolon : ':' ∉ appId.toList := by
      intro hmem
      have hvalid := (Host.isValidId_chars hid).right.right _ hmem
      exact absurd hvalid (by decide)
    unfold appHost
    simp [hidcolon, hlabel.unseparated.colon, proxyDomain]
  unfold pairedLocation
  rw [browserRequest_path hauthority, browserRequest_appOrigin hid' hlabel.unseparated.slash]
  unfold BrowserRequest.ofTarget
  rw [hostHeader_with_suffix hcolon]
  rfl

theorem redirect_pairedLocation {label appId : String} (hlabel : IsLabel label)
    (hid : isValidId appId = true) (port : UInt16) {setCookie : Option String}
    (hcookie : forall cookie, setCookie = some cookie -> HeaderText cookie) :
    redirect (pairedLocation port label appId) setCookie =
      PairAnswer.redirect (pairedLocation port label appId) setCookie := by
  have happ : HeaderText appId :=
    List.all_eq_true.mpr fun c hc =>
      (isIdChar_spec ((Host.isValidId_chars hid).right.right c hc)).right
  have hshare : HeaderText label :=
    List.all_eq_true.mpr fun c hc => (isSlugChar_header (hlabel.chars c hc)).right.left
  have hdot : HeaderText "." := rfl
  have hhost : HeaderText (appHost appId label) :=
    (((happ.append hdot).append hshare).append hdot).append (rfl : HeaderText proxyDomain)
  have hlocation : HeaderText (pairedLocation port label appId) :=
    ((HeaderText.append (rfl : HeaderText "http://")
      (hhost.append (headerText_portSuffix port))).append
      (rfl : HeaderText "/")).append (rfl : HeaderText "")
  have hall : setCookie.all (fun cookie => cookie.toList.all isHeaderChar) = true := by
    cases setCookie with
    | none => rfl
    | some cookie => exact hcookie cookie rfl
  unfold redirect
  have hlocation' : (pairedLocation port label appId).toList.all isHeaderChar = true := hlocation
  rw [hlocation', hall]
  rfl

/-- A token that pairs a browser now. -/
def CookieIssuer.live (issuer : CookieIssuer) (now : Nat) (token : String) : Bool :=
  (issuer.consumeToken now token).1

/-- What the pairing endpoint answers to the request for a pairing URL with a live token. -/
theorem answerOwnHost_pairUrl {issuer : CookieIssuer} {now : Nat} {token : MintedSecret}
    (hlive : issuer.live now token.text = true) {label appId : String} (hlabel : IsLabel label)
    (hid : isValidId appId = true) (port : UInt16) (cookies : List (List UInt8)) :
    exists req, browserRequest (pairUrl port token.text label appId) = some req ∧
      parseHost req.host = some Route.proxy ∧
      if isDnsLabel appId then
        exists setCookie, (answerOwnHost issuer now req cookies).1 =
          PairAnswer.redirect (pairedLocation port label appId) setCookie
      else
        (answerOwnHost issuer now req cookies).1 = PairAnswer.error 400 "invalid share or app" := by
  have htoken : '&' ∉ token.text.toList :=
    fun hmem => (isHexChar_spec (token.chars _ hmem)).left rfl
  have hshare : '&' ∉ label.toList := fun hmem => (isSlugChar_header (hlabel.chars _ hmem)).left rfl
  have happ : '&' ∉ appId.toList :=
    fun hmem => (isIdChar_spec ((Host.isValidId_chars hid).right.right _ hmem)).left rfl
  refine ⟨_, browserRequest_pairUrl port token.text label appId, parseHost_proxyDomain port, ?_⟩
  have hparams := parseQuery_pair htoken hshare happ
  have hshareparam : param "share" [("token", token.text), ("share", label), ("app", appId)] =
      some label := by
    simp [param]
  have happparam : param "app" [("token", token.text), ("share", label), ("app", appId)] =
      some appId := by
    simp [param]
  have htokenparam : param "token" [("token", token.text), ("share", label), ("app", appId)] =
      some token.text := by
    simp [param]
  have hpathparam : param "path" [("token", token.text), ("share", label), ("app", appId)] =
      none := by
    simp [param]
  have hlocation : "http://" ++ appId ++ "." ++ label ++ "." ++ (proxyDomain ++ portSuffix port) ++
      "/" = pairedLocation port label appId := by
    rw [← String.toList_inj]
    unfold pairedLocation appHost
    simp
  unfold answerOwnHost answerPair
  simp only [if_true, Option.getD_some, hparams, hshareparam, happparam, hpathparam, htokenparam,
    isDnsLabel_of_isLabel hlabel, Bool.not_true, Bool.false_or, Option.getD_none]
  cases hdns : isDnsLabel appId with
  | false => simp
  | true =>
      have hpath : ("/" : String).toList.head? = some '/' := rfl
      simp only [Bool.not_true, Bool.false_eq_true, if_false, if_true, hpath, ne_eq,
        not_true_eq_false, hlocation]
      by_cases hpaired : issuer.requiredCookie.isPresentedIn cookies = true
      · refine ⟨none, ?_⟩
        rw [if_pos hpaired]
        dsimp only
        exact redirect_pairedLocation hlabel hid port nofun
      · refine ⟨some issuer.setCookieHeader, ?_⟩
        have hconsumed : (issuer.consumeToken now token.text).1 = true := hlive
        rw [if_neg hpaired, if_pos hconsumed]
        dsimp only
        refine redirect_pairedLocation hlabel hid port ?_
        intro cookie hcookie
        cases hcookie
        exact headerText_setCookie issuer

section
variable {urls : UrlParser} {crates : ConfigCrates} {text : JsonText} {slug : Slugify}

/-- A live token gets a browser to an app if, and only if, the app's id can be a label. -/
theorem pairing_redirects_iff {file : String} {config : ShareConfig}
    (hparse : ShareConfig.parse crates urls file = Except.ok config) {app : AppConfig}
    (happ : app ∈ config.apps) {s : Device} {acts : List DeviceAction}
    (hrun : Run (deviceStep text slug) Device.start acts s) {id : Int} {r : ShareRow}
    (hr : s.db.row id = some r) {label : String} (hlabel : r.hostname = some label)
    {minting issuer : CookieIssuer} {minted now : Nat} {token : MintedSecret}
    (hlive : issuer.live now token.text = true) (port : UInt16) (cookies : List (List UInt8)) :
    (exists req location setCookie,
      browserRequest (browseUrl (some minting) minted token port label app.id).1 = some req ∧
        parseHost req.host = some Route.proxy ∧
        (answerOwnHost issuer now req cookies).1 = PairAnswer.redirect location setCookie ∧
        browserRequest location = browserRequest (appOrigin port label app.id)) <->
      FitsLabel app.id := by
  have hconfig := Host.ShareConfig.parse_ok hparse
  have hid := (hconfig.apps app happ).id
  have hfit := (run_labels hrun).fit id r label hr hlabel
  rcases answerOwnHost_pairUrl hlive hfit hid port cookies with ⟨req, hreq, hroute, hanswer⟩
  rw [← isDnsLabel_iff hid]
  constructor
  · intro h
    rcases h with ⟨req', location, setCookie, hreq', -, hredirect, -⟩
    cases hdns : isDnsLabel app.id with
    | true => rfl
    | false =>
        have hsame : req' = req := Option.some.inj (hreq'.symm.trans hreq)
        rw [hdns] at hanswer
        rw [hsame, hanswer] at hredirect
        cases hredirect
  · intro hdns
    rw [hdns] at hanswer
    rcases hanswer with ⟨setCookie, hredirect⟩
    exact ⟨req, _, setCookie, hreq, hroute, hredirect,
      browserRequest_pairedLocation hfit hid port⟩

end

/-!
## An id with an underscore
-/

/-- A share of one app, whose id has an underscore. -/
def underscoreFile : String :=
  "name = \"Family\"\n\n[[app]]\nid = \"our_photos\"\nupstream = \":3000\"\n"

/-- What this file holds. -/
def underscoreCrates : ConfigCrates where
  toml := fun text =>
    if text = underscoreFile then
      some (Json.obj [("name", Json.str "Family"), ("app", Json.arr [Json.obj
        [("id", Json.str "our_photos"), ("upstream", Json.str ":3000")]])])
    else none
  pemSections := fun _ => Except.ok []
  addRoot := fun _ => Except.ok ()
  base64 := fun _ => ""

/-- A secret to run the model on. -/
def someSecret : MintedSecret where
  text := "0123456789abcdef0123456789abcdef0123456789abcdef0123456789abcdef"
  minted := by decide

/-- An issuer that has just handed out this token. -/
def someIssuer : CookieIssuer where
  secret := someSecret
  tag := "0123456789abcdef"
  tag_chars := by decide
  tokenLifetime := 60
  endOfTime := 1000
  tokens := [(someSecret, some 60)]

theorem live_someIssuer : someIssuer.live 1 someSecret.text = true := by
  have hfound : someIssuer.tokens.find? (fun t => t.1.text = someSecret.text) =
      some (someSecret, some 60) := List.find?_cons_of_pos (decide_eq_true rfl)
  unfold CookieIssuer.live CookieIssuer.consumeToken
  rw [hfound]
  rfl

/-- The config is accepted, but a browser with a live token is turned away. -/
theorem underscore_is_turned_away :
    ShareConfig.parse underscoreCrates UrlParser.development underscoreFile =
        Except.ok (photosConfig "our_photos") ∧
      someIssuer.live 1 someSecret.text = true ∧
      (browserRequest (browseUrl (some someIssuer) 0 someSecret 4000 "family" "our_photos").1).map
          (fun req => (parseHost req.host, (answerOwnHost someIssuer 1 req []).1)) =
        some (some Route.proxy, PairAnswer.error 400 "invalid share or app") ∧
      exists s r, Run (deviceStep Json.compact Slugify.ascii) Device.start
          (wholeJoin 0 firstShare familyInfo) s ∧
        s.db.row 1 = some r ∧ r.hostname = some "family" := by
  rcases family_joined with ⟨s, r, hrun, hr, -, -, hlabel, -⟩
  have hid : isValidId "our_photos" = true := by decide
  have hdns : isDnsLabel "our_photos" = false := by decide
  rcases answerOwnHost_pairUrl live_someIssuer ((run_labels hrun).fit _ _ _ hr hlabel) hid 4000 []
    with ⟨req, hreq, hroute, hanswer⟩
  rw [hdns] at hanswer
  refine ⟨by decide +kernel, live_someIssuer, ?_, s, r, hrun, hr, hlabel⟩
  have hurl : (browseUrl (some someIssuer) 0 someSecret 4000 "family" "our_photos").1 =
      pairUrl 4000 someSecret.text "family" "our_photos" := rfl
  rw [hurl, hreq, Option.map_some, hroute, hanswer]

theorem pairing_redirects_for_photos :
    exists req location setCookie,
      browserRequest (browseUrl (some someIssuer) 0 someSecret 4000 "family" "photos").1 =
          some req ∧
        parseHost req.host = some Route.proxy ∧
        (answerOwnHost someIssuer 1 req []).1 = PairAnswer.redirect location setCookie ∧
        browserRequest location = browserRequest (appOrigin 4000 "family" "photos") := by
  rcases family_joined with ⟨s, r, hrun, hr, -, -, hlabel, -⟩
  have hfits : FitsLabel (photosApp "photos").id := by
    constructor
    · intro c hc hunderscore
      have hno : '_' ∉ ("photos" : String).toList := by decide
      rw [hunderscore] at hc
      exact hno hc
    · decide
  exact (pairing_redirects_iff parse_plainFile (List.mem_singleton.mpr rfl) hrun hr hlabel
    live_someIssuer 4000 []).mpr hfits

end Guest
end WispersAccess
