import WispersAccess.Guest.PairingRuns

/-!
# What a token is spent on

The pairing endpoint consumes the token before it builds the redirect, and the
redirect may come to nothing: the path that the browser asks for may hold
characters that no header carries.
-/

namespace WispersAccess
namespace Guest

open Foundation

/-- The path in the app that a pairing request asks for. -/
def pairPath (req : BrowserRequest) : String :=
  (param "path" (parseQuery (req.query.getD ""))).getD "/"

/-- An unpaired browser asks for an app with a live token. -/
structure AsksToPair (issuer : CookieIssuer) (now : Nat) (req : BrowserRequest)
    (cookies : List (List UInt8)) (token : String) : Prop where
  endpoint : req.path = "/pair"
  share : exists share, param "share" (parseQuery (req.query.getD "")) = some share ∧
    isDnsLabel share = true
  app : exists app, param "app" (parseQuery (req.query.getD "")) = some app ∧
    isDnsLabel app = true
  path : (pairPath req).toList.head? = some '/'
  unpaired : issuer.requiredCookie.isPresentedIn cookies = false
  presented : param "token" (parseQuery (req.query.getD "")) = some token
  live : issuer.live now token = true

/-- The token is live: it pairs a browser that asks with it for a path a header can carry. -/
def PairsBrowsers (issuer : CookieIssuer) (now : Nat) (token : String) : Prop :=
  issuer.live now token = true ∧
    forall req cookies, AsksToPair issuer now req cookies token ->
      HeaderText (req.host ++ pairPath req) ->
      exists location, (answerOwnHost issuer now req cookies).1 =
        PairAnswer.redirect location (some issuer.setCookieHeader)

/-!
## Tokens
-/

namespace CookieIssuer

section
variable {issuer : CookieIssuer} {now later : Nat} {token token' : String}

theorem live_eq : issuer.live now token =
    (issuer.tokens.find? fun t => t.1.text = token).any fun t => unexpired now t.2 := by
  unfold live consumeToken
  cases issuer.tokens.find? fun t => t.1.text = token <;> rfl

/-- A token does not come to life again. -/
theorem live_of_live_later (h : issuer.live later token = true) (hlater : now ≤ later) :
    issuer.live now token = true := by
  rw [live_eq] at *
  cases hfind : issuer.tokens.find? fun t => t.1.text = token with
  | none =>
      rw [hfind] at h
      cases h
  | some found =>
      rcases found with ⟨minted, expiry⟩
      rw [hfind] at h
      cases expiry with
      | none => rfl
      | some e =>
          have hlt : later < e := of_decide_eq_true h
          exact decide_eq_true (Nat.lt_of_le_of_lt hlater hlt)

theorem live_consumeToken_self :
    (issuer.consumeToken now token).2.live later token = false := by
  have hgone : (issuer.consumeToken now token).2.tokens.find? (fun t => t.1.text = token) =
      none := by
    rw [consumeToken_snd, List.find?_eq_none]
    intro t ht
    simpa using (List.mem_filter.mp ht).right
  rw [live_eq, hgone]
  rfl

theorem live_consumeToken_other (hne : token' ≠ token) :
    (issuer.consumeToken now token).2.live later token' = issuer.live later token' := by
  have hsame : (issuer.consumeToken now token).2.tokens.find? (fun t => t.1.text = token') =
      issuer.tokens.find? fun t => t.1.text = token' := by
    rw [consumeToken_snd, List.find?_filter]
    congr 1
    funext t
    by_cases ht : t.1.text = token'
    · simp [ht, hne]
    · simp [ht]
  rw [live_eq, live_eq, hsame]

end

end CookieIssuer

/-!
## Locations
-/

theorem headerText_append_iff {s t : String} :
    HeaderText (s ++ t) <-> HeaderText s ∧ HeaderText t := by
  unfold HeaderText
  rw [String.toList_append, List.all_append, Bool.and_eq_true]

theorem headerText_of_isDnsLabel {label : String} (h : isDnsLabel label = true) :
    HeaderText label := by
  have hall : forall c : Char, c.toNat < 128 -> (c.isAlphanum || c == '-') = true ->
      isHeaderChar c = true :=
    forall_ascii (by decide)
  unfold isDnsLabel at h
  rw [Bool.and_eq_true, List.all_eq_true] at h
  apply List.all_eq_true.mpr
  intro c hc
  have hlabel := h.right c hc
  refine hall c ?_ hlabel
  rw [Bool.or_eq_true, beq_iff_eq] at hlabel
  cases hlabel with
  | inl halnum => exact ascii_of_isAlphanum halnum
  | inr hdash =>
      rw [hdash]
      decide

theorem headerText_location {app share host path : String} (happ : isDnsLabel app = true)
    (hshare : isDnsLabel share = true) :
    HeaderText ("http://" ++ app ++ "." ++ share ++ "." ++ host ++ path) <->
      HeaderText (host ++ path) := by
  have hscheme : HeaderText "http://" := rfl
  have hdot : HeaderText "." := rfl
  simp only [headerText_append_iff, hscheme, hdot, headerText_of_isDnsLabel happ,
    headerText_of_isDnsLabel hshare, true_and]

theorem redirect_setCookie (issuer : CookieIssuer) (location : String) :
    (HeaderText location ∧ redirect location (some issuer.setCookieHeader) =
        PairAnswer.redirect location (some issuer.setCookieHeader)) ∨
      (¬ HeaderText location ∧ redirect location (some issuer.setCookieHeader) =
        PairAnswer.error 400 "invalid path") := by
  have hcookie := headerText_setCookie issuer
  unfold HeaderText at hcookie
  unfold redirect
  rw [Option.all_some, hcookie, Bool.and_true]
  by_cases hlocation : HeaderText location
  · exact Or.inl ⟨hlocation, if_pos hlocation⟩
  · exact Or.inr ⟨hlocation, if_neg hlocation⟩

/-!
## The endpoint
-/

section
variable {issuer : CookieIssuer} {now : Nat} {req : BrowserRequest} {cookies : List (List UInt8)}
  {token : String}

/-- A browser that asks to be paired has its token consumed, and is sent on where it can be. -/
theorem AsksToPair.answer (h : AsksToPair issuer now req cookies token) :
    exists location, (HeaderText location <-> HeaderText (req.host ++ pairPath req)) ∧
      answerOwnHost issuer now req cookies =
        (redirect location (some issuer.setCookieHeader), (issuer.consumeToken now token).2) := by
  rcases h.share with ⟨share, hshare, hshare'⟩
  rcases h.app with ⟨app, happ, happ'⟩
  have hlive : (issuer.consumeToken now token).1 = true := h.live
  have hpath := h.path
  unfold pairPath at hpath
  refine ⟨_, headerText_location happ' hshare', ?_⟩
  unfold answerOwnHost answerPair pairPath
  rw [if_pos h.endpoint]
  simp only [hshare, happ, hshare', happ', hpath, h.unpaired, h.presented, hlive, Bool.not_true,
    Bool.or_self, Bool.false_eq_true, if_false, if_true, ne_eq, not_true_eq_false]

theorem asksToPair_of_spent (hspent : spentToken issuer req cookies = some token)
    (hlive : issuer.live now token = true) : AsksToPair issuer now req cookies token := by
  unfold spentToken at hspent
  dsimp only at hspent
  cases hshare : param "share" (parseQuery (req.query.getD "")) with
  | none =>
      rw [hshare] at hspent
      cases hspent
  | some share =>
      cases happ : param "app" (parseQuery (req.query.getD "")) with
      | none =>
          rw [hshare, happ] at hspent
          cases hspent
      | some app =>
          rw [hshare, happ] at hspent
          simp only at hspent
          split at hspent
          · rename_i hall
            exact
              { endpoint := hall.left
                share := ⟨share, hshare, hall.right.left⟩
                app := ⟨app, happ, hall.right.right.left⟩
                path := hall.right.right.right.left
                unpaired := hall.right.right.right.right
                presented := hspent
                live := hlive }
          · cases hspent

/-- A live token pairs. -/
theorem pairsBrowsers_of_live (hlive : issuer.live now token = true) :
    PairsBrowsers issuer now token := by
  refine ⟨hlive, ?_⟩
  intro req cookies hasks hheader
  rcases hasks.answer with ⟨location, hlocation, hanswer⟩
  refine ⟨location, ?_⟩
  rw [hanswer]
  rcases redirect_setCookie issuer location with ⟨_, hredirect⟩ | ⟨hnot, _⟩
  · exact hredirect
  · exact absurd (hlocation.mpr hheader) hnot

/-- Requests that do not ask to be paired spend no live token. -/
theorem live_of_not_asks (hnot : forall token, ¬ AsksToPair issuer now req cookies token)
    {later : Nat} (hlater : now ≤ later) (hlive : issuer.live later token = true) :
    (answerOwnHost issuer now req cookies).2.live later token = true := by
  have hanswers := answerOwnHost_answers issuer now req cookies
  cases hspent : spentToken issuer req cookies with
  | none =>
      rw [hspent] at hanswers
      rw [hanswers.left]
      exact hlive
  | some spent =>
      rw [hspent] at hanswers
      have hdead : token ≠ spent := by
        intro heq
        subst heq
        exact hnot token
          (asksToPair_of_spent hspent (CookieIssuer.live_of_live_later hlive hlater))
      rw [hanswers.right.left, CookieIssuer.live_consumeToken_other hdead]
      exact hlive

end

/-!
## Spent on a pairing
-/

/-- A request that is not answered with the cookie leaves every live token as good as it was,
unless it asks with a live token for what no `Location` header can carry. -/
theorem pairing_spends_tokens_iff (issuer : CookieIssuer) (now : Nat) (req : BrowserRequest)
    (cookies : List (List UInt8)) :
    ((forall location, (answerOwnHost issuer now req cookies).1 ≠
        PairAnswer.redirect location (some issuer.setCookieHeader)) ->
      forall token later, now ≤ later -> issuer.live later token = true ->
        PairsBrowsers (answerOwnHost issuer now req cookies).2 later token) <->
      forall token, AsksToPair issuer now req cookies token ->
        HeaderText (req.host ++ pairPath req) := by
  constructor
  · intro hkeeps token hasks
    rcases hasks.answer with ⟨location, hlocation, hanswer⟩
    rw [hanswer] at hkeeps
    rcases redirect_setCookie issuer location with ⟨hheader, _⟩ | ⟨_, herror⟩
    · exact hlocation.mp hheader
    · exfalso
      have hpairs := hkeeps (by rw [herror]; intro location h; cases h) token now
        (Nat.le_refl now) hasks.live
      rw [PairsBrowsers, CookieIssuer.live_consumeToken_self] at hpairs
      cases hpairs.left
  · intro hcarried hnot token later hlater hlive
    apply pairsBrowsers_of_live
    by_cases hasks : exists spent, AsksToPair issuer now req cookies spent
    · exfalso
      rcases hasks with ⟨spent, hasks⟩
      rcases (pairsBrowsers_of_live hasks.live).right req cookies hasks
        (hcarried spent hasks) with ⟨location, hredirect⟩
      exact hnot location hredirect
    · exact live_of_not_asks (fun spent h => hasks ⟨spent, h⟩) hlater hlive

/-- A browser asks to be paired and sent to a path with a delete character. -/
def deletePathRequest : BrowserRequest where
  host := "wa.localhost:4000"
  path := "/pair"
  query := some ("token=" ++ someSecret.text ++ "&share=family&app=photos&path=/\x7f")

/-- It is answered with an error, and its token is spent. -/
theorem token_spent_on_an_error :
    (answerOwnHost someIssuer 1 deletePathRequest []).1 = PairAnswer.error 400 "invalid path" ∧
      someIssuer.live 1 someSecret.text = true ∧
      ¬ PairsBrowsers (answerOwnHost someIssuer 1 deletePathRequest []).2 1 someSecret.text := by
  refine ⟨by decide +kernel, live_someIssuer, ?_⟩
  intro hpairs
  have hdead : (answerOwnHost someIssuer 1 deletePathRequest []).2.live 1 someSecret.text =
      false := by decide +kernel
  rw [PairsBrowsers, hdead] at hpairs
  cases hpairs.left

end Guest
end WispersAccess
