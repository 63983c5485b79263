import WispersAccess.Guest.Device

/-!
# The labels a store assigns

Wherever a device gets to, share ids and labels are each one row's, and a label
is one that a hostname may have: lowercase letters, digits and hyphens, at most
63 of them.
-/

namespace WispersAccess
namespace Guest

open Foundation
open Wire (ShareInfo)

/-!
## Where labels come from
-/

/-- What can be said of a label that a row claims. -/
structure DB.Claims (db : DB) (id : Int) (r : ShareRow) (hostname label : String) : Prop where
  short : byteLen label ≤ 63
  free : forall j q, db.row j = some q -> j ≠ id -> q.hostname ≠ some label
  source : label = r.shareId.text ∨
    exists n, n ≤ db.shares.rows.length + 1 ∧ db.firstFree id hostname n = true ∧
      label = candidate hostname n

section
variable {text : JsonText}

/-- A row with a label had it before, or claims it now. -/
theorem storeStep_label {db db' : DB} {op : StoreOp} (h : storeStep text db op = some db')
    {id : Int} {r' : ShareRow} {label : String} (hr' : db'.row id = some r')
    (hlabel : r'.hostname = some label) :
    exists r, db.row id = some r ∧ r'.shareId = r.shareId ∧ (r.hostname = some label ∨
      exists hostname, op = StoreOp.writeDedupedHostname id hostname ∧
        db.Claims id r hostname label) := by
  rcases storeStep_origin h hr' with ⟨shareId, now, -, -, rfl⟩ | ⟨r, hr, -, hkept⟩
  · cases hlabel
  · refine ⟨r, hr, hkept.shareId, ?_⟩
    by_cases hop : exists hostname, op = StoreOp.writeDedupedHostname id hostname
    · rcases hop with ⟨hostname, rfl⟩
      rcases Option.map_eq_some_iff.mp h with ⟨⟨next, claimed⟩, hwrite, rfl⟩
      rcases DB.writeDedupedHostname_some hwrite with ⟨q, hq, rfl, hshort, hfree, hsource⟩
      rw [hr] at hq
      cases hq
      rw [DB.row_updateShare_self hr] at hr'
      cases hr'
      cases hlabel
      exact Or.inr ⟨hostname, rfl, hshort, hfree, hsource⟩
    · rw [hkept.hostname fun hostname heq => hop ⟨hostname, heq⟩] at hlabel
      exact Or.inl hlabel

/-- The share id of a row was its before, or is the one minted for it. -/
theorem storeStep_shareId {db db' : DB} {op : StoreOp} (h : storeStep text db op = some db')
    {id : Int} {r' : ShareRow} (hr' : db'.row id = some r') :
    (exists now, op = StoreOp.newRow r'.shareId now ∧ id = db.shares.nextId) ∨
      exists r, db.row id = some r ∧ r'.shareId = r.shareId := by
  rcases storeStep_origin h hr' with ⟨shareId, now, hop, hid, rfl⟩ | ⟨r, hr, -, hkept⟩
  · exact Or.inl ⟨now, hop, hid⟩
  · exact Or.inr ⟨r, hr, hkept.shareId⟩

/-!
## Rows apart
-/

/-- Share ids and labels are each one row's. -/
structure LabelsDistinct (db : DB) : Prop where
  shares : forall i j r r', db.row i = some r -> db.row j = some r' ->
    r.shareId = r'.shareId -> i = j
  labels : forall i j r r' label, db.row i = some r -> db.row j = some r' ->
    r.hostname = some label -> r'.hostname = some label -> i = j

theorem labelsDistinct_empty : LabelsDistinct DB.empty where
  shares := by
    intro i j r r' hr
    cases hr
  labels := by
    intro i j r r' label hr
    cases hr

theorem storeStep_distinct {db db' : DB} {op : StoreOp} (hinv : LabelsDistinct db)
    (h : storeStep text db op = some db') : LabelsDistinct db' := by
  have hfresh : forall shareId now, op = StoreOp.newRow shareId now ->
      forall j r, db.row j = some r -> r.shareId ≠ shareId := by
    intro shareId now hsame
    subst hsame
    rcases Option.map_eq_some_iff.mp h with ⟨⟨next, id⟩, hnew, -⟩
    exact (DB.newRow_eq_some_iff.mp hnew).left
  constructor
  · intro i j q q' hq hq' heq
    rcases storeStep_shareId h hq with ⟨now, hop, hi⟩ | ⟨r, hr, hshare⟩
    · rcases storeStep_shareId h hq' with ⟨now', -, hj⟩ | ⟨r', hr', hshare'⟩
      · exact hi.trans hj.symm
      · exact absurd (hshare'.symm.trans heq.symm) (hfresh _ now hop j r' hr')
    · rcases storeStep_shareId h hq' with ⟨now', hop', -⟩ | ⟨r', hr', hshare'⟩
      · exact absurd (hshare.symm.trans heq) (hfresh _ now' hop' i r hr)
      · exact hinv.shares i j r r' hr hr' (hshare.symm.trans (heq.trans hshare'))
  · intro i j q q' label hq hq' hlabel hlabel'
    rcases storeStep_label h hq hlabel with ⟨r, hr, -, hold | ⟨hostname, hop, hclaims⟩⟩
    · rcases storeStep_label h hq' hlabel' with ⟨r', hr', -, hold' | ⟨hostname', -, hclaims'⟩⟩
      · exact hinv.labels i j r r' label hr hr' hold hold'
      · by_cases hij : i = j
        · exact hij
        · exact absurd hold (hclaims'.free i r hr hij)
    · rcases storeStep_label h hq' hlabel' with ⟨r', hr', -, hold' | ⟨hostname', hop', -⟩⟩
      · by_cases hij : j = i
        · exact hij.symm
        · exact absurd hold' (hclaims.free j r' hr' hij)
      · rw [hop] at hop'
        cases hop'
        rfl

end

/-!
## What labels are made of
-/

/-- A text that can be a label of a hostname. -/
structure IsLabel (label : String) : Prop where
  nonempty : label ≠ ""
  short : byteLen label ≤ 63
  chars : forall c, c ∈ label.toList -> isSlugChar c = true

theorem ShareId.isLabel (id : ShareId) : IsLabel id.text where
  nonempty := by
    intro hempty
    have hlength := id.byteLen_eq
    rw [hempty] at hlength
    cases hlength
  short := by
    rw [id.byteLen_eq]
    decide
  chars := id.slugChars

theorem hostSlug_isLabel {slug : Slugify} {name label : String}
    (h : hostSlug slug name = some label) : IsLabel label := by
  rcases hostSlug_spec h with ⟨hnonempty, hlength, hchars⟩
  refine ⟨hnonempty, ?_, hchars⟩
  rw [byteLen_of_ascii fun c hc => ascii_of_isSlugChar (hchars c hc)]
  exact hlength

theorem isSlugChar_of_isDigit {c : Char} (h : c.isDigit = true) : isSlugChar c = true := by
  have hall : forall c : Char, c.toNat < 128 -> c.isDigit = true -> isSlugChar c = true :=
    forall_ascii (by decide)
  exact hall c (ascii_of_isDigit h) h

/-- A label tried for a row is one, unless it is too long. -/
theorem IsLabel.candidate {hostname : String} (h : IsLabel hostname) {n : Nat}
    (hshort : byteLen (candidate hostname n) ≤ 63) : IsLabel (Guest.candidate hostname n) := by
  refine ⟨?_, hshort, ?_⟩
  · unfold Guest.candidate
    split
    · exact h.nonempty
    · intro hempty
      have hchars := congrArg String.toList hempty
      simp at hchars
  · unfold Guest.candidate
    split
    · exact h.chars
    · intro c hc
      simp only [String.toList_append, List.mem_append] at hc
      rcases hc with (hc | hc) | hc
      · exact h.chars c hc
      · have hdash : c = '-' := by simpa using hc
        rw [hdash]
        decide
      · rw [Nat.toString_eq_ofList_toDigits, String.toList_ofList] at hc
        exact isSlugChar_of_isDigit (isDigit_of_mem_toDigits hc)

theorem DB.Claims.isLabel {db : DB} {id : Int} {r : ShareRow} {hostname label : String}
    (h : db.Claims id r hostname label) (hhostname : IsLabel hostname) : IsLabel label := by
  rcases h.source with hown | ⟨n, -, -, hcandidate⟩
  · rw [hown]
    exact r.shareId.isLabel
  · have hshort := h.short
    rw [hcandidate] at hshort ⊢
    exact hhostname.candidate hshort

/-!
## Runs of a device
-/

/-- What holds of the labels of every store that a device gets to. -/
structure LabelsFit (db : DB) : Prop extends LabelsDistinct db where
  fit : forall id r label, db.row id = some r -> r.hostname = some label -> IsLabel label

theorem labelsFit_empty : LabelsFit DB.empty where
  toLabelsDistinct := labelsDistinct_empty
  fit := by
    intro id r label hr
    cases hr

section
variable {text : JsonText} {slug : Slugify}

theorem callOp_hostname {c : Call} {event : Event} {id : Int} {hostname : String}
    (h : callOp slug c event = some (StoreOp.writeDedupedHostname id hostname)) :
    IsLabel hostname := by
  cases event with
  | writeDedupedHostname =>
      simp only [callOp] at h
      split at h
      · rename_i share name _
        cases h
        cases hslug : hostSlug slug name with
        | none => exact share.isLabel
        | some label => exact hostSlug_isLabel hslug
      · cases h
  | writeBackend | writeShareInfo | writeDisplayName =>
      simp only [callOp] at h
      split at h
      all_goals cases h
  | _ => cases h

/-- A device only asks for labels that can be ones. -/
theorem deviceOp_hostname {s t : Device} {a : DeviceAction} {id : Int} {hostname : String}
    (hstep : deviceStep text slug s a = some t)
    (h : deviceOp slug s a = some (StoreOp.writeDedupedHostname id hostname)) :
    IsLabel hostname := by
  cases a with
  | call i event =>
      rcases Option.bind_eq_some_iff.mp h with ⟨c, -, hop⟩
      exact callOp_hostname hop
  | refresh op =>
      cases h
      cases hstep
  | _ => cases h

theorem deviceStep_labels {s t : Device} {a : DeviceAction} (hs : LabelsFit s.db)
    (h : deviceStep text slug s a = some t) : LabelsFit t.db := by
  have hwrite := deviceStep_db h
  have hhostname := fun id hostname => @deviceOp_hostname text slug s t a id hostname h
  cases hop : deviceOp slug s a with
  | none =>
      rw [hop] at hwrite
      exact Option.some.inj hwrite ▸ hs
  | some op =>
      rw [hop] at hwrite hhostname
      refine ⟨storeStep_distinct hs.toLabelsDistinct hwrite, ?_⟩
      intro id r' label hr' hlabel
      rcases storeStep_label hwrite hr' hlabel with ⟨r, hr, -, hold | ⟨hostname, rfl, hclaims⟩⟩
      · exact hs.fit id r label hr hold
      · exact hclaims.isLabel (hhostname id hostname rfl)

theorem run_labels {s : Device} {acts : List DeviceAction}
    (hrun : Run (deviceStep text slug) Device.start acts s) : LabelsFit s.db :=
  hrun.invariant (fun _ _ _ hs h => deviceStep_labels hs h) labelsFit_empty

end

end Guest
end WispersAccess
