import WispersAccess.Guest.Storage

/-!
# Hostname labels

A share is addressed by a label of its own.  The label is made from the share's
name, deduplicated against the labels taken, and is the share id where that
fails.
-/

namespace WispersAccess
namespace Guest

open Foundation
open Wire (ShareInfo)

/-!
## Slugs
-/

def isSlugChar (c : Char) : Bool :=
  ('a' ≤ c && c ≤ 'z') || ('0' ≤ c && c ≤ '9') || c == '-'

/-- `slug::slugify`: what is left of a text are lowercase letters, digits and hyphens. -/
structure Slugify where
  slugify : String -> String
  chars : forall s c, c ∈ (slugify s).toList -> isSlugChar c = true

/-- Lowercase letters and digits, and a hyphen for any run of others. -/
def asciiSlug : Bool -> List Char -> List Char
  | _, [] => []
  | dash, c :: cs =>
      if c.isAlphanum then c.toLower :: asciiSlug false cs
      else if dash then asciiSlug true cs
      else '-' :: asciiSlug true cs

theorem isSlugChar_toLower {c : Char} (h : c.isAlphanum = true) :
    isSlugChar c.toLower = true := by
  have hall : forall c : Char, c.toNat < 128 -> c.isAlphanum = true ->
      isSlugChar c.toLower = true :=
    forall_ascii (by decide)
  exact hall c (ascii_of_isAlphanum h) h

theorem asciiSlug_chars (dash : Bool) (cs : List Char) :
    forall c, c ∈ asciiSlug dash cs -> isSlugChar c = true := by
  induction cs generalizing dash with
  | nil =>
      intro c hc
      cases hc
  | cons d cs ih =>
      intro c hc
      unfold asciiSlug at hc
      split at hc
      · rename_i hd
        rcases List.mem_cons.mp hc with rfl | hc
        · exact isSlugChar_toLower hd
        · exact ih false c hc
      · split at hc
        · exact ih true c hc
        · rcases List.mem_cons.mp hc with rfl | hc
          · decide
          · exact ih true c hc

/-- What slugifying does to an ASCII text. -/
def Slugify.ascii : Slugify where
  slugify := fun s => String.ofList
    ((asciiSlug true s.toList).reverse.dropWhile fun c => c = '-').reverse
  chars := by
    intro s c hc
    rw [String.toList_ofList, List.mem_reverse] at hc
    exact asciiSlug_chars true s.toList c
      (List.mem_reverse.mp ((List.dropWhile_sublist _).subset hc))

/-- Free-form name to DNS-label-safe slug, or nothing if nothing usable remains. -/
def hostSlug (slug : Slugify) (name : String) : Option String :=
  let cleaned := String.ofList (name.toList.filter fun c => c ≠ '\'' ∧ c ≠ '’')
  -- a slug is ASCII, so that a byte is a character
  let s := (slug.slugify cleaned).toList.take 63
  let s := (s.reverse.dropWhile fun c => c = '-').reverse
  if s = [] then none else some (String.ofList s)

theorem ascii_of_isSlugChar {c : Char} (h : isSlugChar c = true) : c.val ≤ 127 := by
  unfold isSlugChar at h
  simp only [Bool.or_eq_true, Bool.and_eq_true, decide_eq_true_eq, beq_iff_eq] at h
  rcases h with (⟨-, hle⟩ | ⟨-, hle⟩) | rfl
  · exact Nat.le_trans hle (by decide)
  · exact Nat.le_trans hle (by decide)
  · decide

theorem isSlugChar_of_isUuidChar {c : Char} (h : isUuidChar c = true) : isSlugChar c = true := by
  unfold isUuidChar at h
  unfold isSlugChar
  simp only [Bool.or_eq_true, Bool.and_eq_true, decide_eq_true_eq, beq_iff_eq] at h ⊢
  rcases h with (hdigit | ⟨hle, hle'⟩) | hdash
  · exact Or.inl (Or.inr hdigit)
  · exact Or.inl (Or.inl ⟨hle, Nat.le_trans hle' (by decide)⟩)
  · exact Or.inr hdash

/-- An ASCII text has as many bytes as characters. -/
theorem byteLen_of_ascii {s : String} (h : forall c, c ∈ s.toList -> c.val ≤ 127) :
    byteLen s = s.toList.length := by
  have hsizes : s.toList.map Char.utf8Size = s.toList.map fun _ => 1 := by
    apply List.map_congr_left
    intro c hc
    exact Char.utf8Size_eq_one_iff.mpr (h c hc)
  unfold byteLen
  rw [hsizes, List.map_const', List.sum_replicate_nat, Nat.mul_one]

theorem ShareId.slugChars (id : ShareId) : forall c, c ∈ id.text.toList -> isSlugChar c = true := by
  intro c hc
  have hminted := id.minted
  unfold isUuidText at hminted
  rw [Bool.and_eq_true, List.all_eq_true] at hminted
  exact isSlugChar_of_isUuidChar (hminted.right c hc)

theorem ShareId.text_injective {id id' : ShareId} (h : id.text = id'.text) : id = id' := by
  cases id
  cases id'
  cases h
  rfl

theorem ShareId.byteLen_eq (id : ShareId) : byteLen id.text = 36 := by
  have hminted := id.minted
  unfold isUuidText at hminted
  rw [Bool.and_eq_true, decide_eq_true_eq] at hminted
  rw [byteLen_of_ascii fun c hc => ascii_of_isSlugChar (id.slugChars c hc), hminted.left]

theorem length_dropTrailing_le (p : Char -> Bool) (cs : List Char) :
    ((cs.reverse.dropWhile p).reverse).length ≤ cs.length := by
  rw [List.length_reverse]
  have hle := (List.dropWhile_sublist p (l := cs.reverse)).length_le
  rwa [List.length_reverse] at hle

theorem mem_of_mem_dropTrailing {p : Char -> Bool} {cs : List Char} {c : Char}
    (h : c ∈ (cs.reverse.dropWhile p).reverse) : c ∈ cs := by
  rw [List.mem_reverse] at h
  exact List.mem_reverse.mp ((List.dropWhile_sublist p).subset h)

/-- A slug is a label that fits. -/
theorem hostSlug_spec {slug : Slugify} {name label : String}
    (h : hostSlug slug name = some label) :
    label ≠ "" ∧ label.toList.length ≤ 63 ∧
      forall c, c ∈ label.toList -> isSlugChar c = true := by
  unfold hostSlug at h
  simp only at h
  split at h
  · cases h
  · rename_i hnonempty
    cases h
    refine ⟨?_, ?_, ?_⟩
    · intro hempty
      exact hnonempty (String.ofList_eq_empty_iff.mp hempty)
    · rw [String.toList_ofList]
      refine Nat.le_trans (length_dropTrailing_le _ _) ?_
      rw [List.length_take]
      exact Nat.min_le_left _ _
    · intro c hc
      rw [String.toList_ofList] at hc
      exact slug.chars _ c (List.mem_of_mem_take (mem_of_mem_dropTrailing hc))

/-!
## Deduplication
-/

/-- The n-th label tried for a share. -/
def candidate (hostname : String) (n : Nat) : String :=
  if n = 1 then hostname else hostname ++ "-" ++ toString n

namespace DB

/-- Another row has this label, which is UNIQUE. -/
def labelTaken (db : DB) (id : Int) (label : String) : Bool :=
  db.shares.rows.any fun r => r.1 ≠ id && r.2.hostname = some label

/-- `UPDATE shares SET hostname = ?1 WHERE id = ?2`; nothing where the label is taken. -/
def writeHostname (db : DB) (id : Int) (label : String) : Option DB :=
  if (db.row id).isSome && db.labelTaken id label then none
  else some (db.updateShare id fun r => { r with hostname := some label })

/-- The n-th label tried for a row is the first of them that no other row has. -/
def firstFree (db : DB) (id : Int) (hostname : String) (n : Nat) : Bool :=
  1 ≤ n && !db.labelTaken id (candidate hostname n) &&
    (List.range n).all fun m => m = 0 || db.labelTaken id (candidate hostname m)

/-- How the search for a free label ends. -/
inductive Search where
  | claimed (db : DB) (label : String)
  /-- The next label is longer than a DNS label may be. -/
  | tooLong
  /-- Still searching. -/
  | unfinished

/-- Up to so many turns of the search, from the n-th label on. -/
def searchLabel (db : DB) (id : Int) (hostname : String) : Nat -> Nat -> Search
  | 0, _ => Search.unfinished
  | turns + 1, n =>
      if 63 < byteLen (candidate hostname n) then Search.tooLong
      else
        match db.writeHostname id (candidate hostname n) with
        | some db' => Search.claimed db' (candidate hostname n)
        | none => searchLabel db id hostname turns (n + 1)

/-- Claim `hostname` as this share's label, or `hostname-2`, `-3`, … if taken; fall back to
the share id.  There are more turns than rows, so the search does not stay unfinished. -/
def writeDedupedHostname (db : DB) (id : Int) (hostname : String) : Option (DB × String) :=
  match db.readShareId id with
  | none => none
  | some shareId =>
      match db.searchLabel id hostname (db.shares.rows.length + 1) 1 with
      | Search.claimed db' label => some (db', label)
      | Search.unfinished => none
      | Search.tooLong =>
          (db.writeHostname id shareId.text).map fun db' => (db', shareId.text)

end DB

/-- No label is tried twice. -/
theorem candidate_injective {hostname : String} {m n : Nat}
    (h : candidate hostname m = candidate hostname n) : m = n := by
  unfold candidate at h
  have hlonger : forall k : Nat, hostname ≠ hostname ++ "-" ++ toString k := by
    intro k heq
    have hlength := congrArg (fun s => s.toList.length) heq
    simp only [String.toList_append, List.length_append] at hlength
    have hdash : "-".toList.length = 1 := by decide
    omega
  split at h
  · split at h
    · omega
    · exact absurd h (hlonger n)
  · split at h
    · exact absurd h.symm (hlonger m)
    · have hdigits := congrArg String.toList h
      simp only [String.toList_append] at hdigits
      exact toString_nat_injective (String.toList_inj.mp (List.append_cancel_left hdigits))

namespace DB

theorem labelTaken_iff {db : DB} {id : Int} {label : String} :
    db.labelTaken id label = true <->
      exists j r, db.row j = some r ∧ j ≠ id ∧ r.hostname = some label := by
  unfold labelTaken
  rw [List.any_eq_true]
  constructor
  · intro hrow
    rcases hrow with ⟨r, hr, h⟩
    rw [Bool.and_eq_true, decide_eq_true_eq, decide_eq_true_eq] at h
    exact ⟨r.1, r.2, SerialTable.lookup_eq_some_iff.mpr hr, h.left, h.right⟩
  · intro htaken
    rcases htaken with ⟨j, r, hr, hj, hlabel⟩
    refine ⟨(j, r), SerialTable.lookup_eq_some_iff.mp hr, ?_⟩
    rw [Bool.and_eq_true, decide_eq_true_eq, decide_eq_true_eq]
    exact ⟨hj, hlabel⟩

theorem writeHostname_eq_some {db db' : DB} {id : Int} {label : String} {r : ShareRow}
    (hr : db.row id = some r) (h : db.writeHostname id label = some db') :
    db' = db.updateShare id (fun r => { r with hostname := some label }) ∧
      forall j s, db.row j = some s -> j ≠ id -> s.hostname ≠ some label := by
  unfold writeHostname at h
  rw [hr, Option.isSome_some, Bool.true_and] at h
  split at h
  · cases h
  · rename_i htaken
    refine ⟨(Option.some.inj h).symm, ?_⟩
    intro j s hs hj hlabel
    exact htaken (labelTaken_iff.mpr ⟨j, s, hs, hj, hlabel⟩)

theorem labelTaken_of_writeHostname {db : DB} {id : Int} {label : String}
    (h : db.writeHostname id label = none) : db.labelTaken id label = true := by
  unfold writeHostname at h
  split at h
  · rename_i htaken
    rw [Bool.and_eq_true] at htaken
    exact htaken.right
  · cases h

theorem writeHostname_eq_none {db : DB} {id : Int} {label : String}
    (h : db.writeHostname id label = none) :
    exists j r, db.row j = some r ∧ j ≠ id ∧ r.hostname = some label :=
  labelTaken_iff.mp (labelTaken_of_writeHostname h)

theorem searchLabel_claimed {db db' : DB} {id : Int} {hostname label : String}
    {turns n : Nat} (h : db.searchLabel id hostname turns n = Search.claimed db' label) :
    exists k, n ≤ k ∧ k < n + turns ∧ label = candidate hostname k ∧ byteLen label ≤ 63 ∧
      db.writeHostname id label = some db' ∧
      forall m, n ≤ m -> m < k -> db.labelTaken id (candidate hostname m) = true := by
  induction turns generalizing n with
  | zero => cases h
  | succ turns ih =>
      unfold searchLabel at h
      split at h
      · cases h
      · rename_i hshort
        cases hwrite : db.writeHostname id (candidate hostname n) with
        | none =>
            rw [hwrite] at h
            rcases ih h with ⟨k, hnk, hk, hlabel, hfits, hclaim, htaken⟩
            refine ⟨k, by omega, by omega, hlabel, hfits, hclaim, ?_⟩
            intro m hnm hm
            by_cases heq : m = n
            · rw [heq]
              exact labelTaken_of_writeHostname hwrite
            · exact htaken m (by omega) hm
        | some next =>
            rw [hwrite] at h
            cases h
            refine ⟨n, Nat.le_refl n, by omega, rfl, Nat.not_lt.mp hshort, hwrite, ?_⟩
            intro m hnm hm
            omega

/-- While the search goes on, every label tried was another row's. -/
theorem searchLabel_unfinished {db : DB} {id : Int} {hostname : String} {turns n : Nat}
    (h : db.searchLabel id hostname turns n = Search.unfinished) :
    forall k, k < turns -> db.writeHostname id (candidate hostname (n + k)) = none := by
  induction turns generalizing n with
  | zero =>
      intro k hk
      omega
  | succ turns ih =>
      unfold searchLabel at h
      split at h
      · cases h
      · cases hwrite : db.writeHostname id (candidate hostname n) with
        | some next =>
            rw [hwrite] at h
            cases h
        | none =>
            rw [hwrite] at h
            intro k hk
            cases k with
            | zero => exact hwrite
            | succ k =>
                have hnext := ih h k (by omega)
                rwa [show n + 1 + k = n + (k + 1) by omega] at hnext

/-- The labels tried are different, so that one more than there are rows is not taken. -/
theorem searchLabel_finishes {db : DB} {id : Int} {hostname : String} {turns n : Nat}
    (hturns : db.shares.rows.length < turns) :
    db.searchLabel id hostname turns n ≠ Search.unfinished := by
  intro h
  have htaken := searchLabel_unfinished h
  let tried := (List.range turns).map fun k => some (candidate hostname (n + k))
  have hnodup : tried.Nodup := by
    refine List.Nodup.map ?_ List.nodup_range
    intro j k hjk
    have hsame := candidate_injective (Option.some.inj hjk)
    omega
  have hsubset : tried ⊆ db.shares.rows.map fun r => r.2.hostname := by
    intro label hlabel
    rcases List.mem_map.mp hlabel with ⟨k, hk, rfl⟩
    rcases writeHostname_eq_none (htaken k (List.mem_range.mp hk)) with ⟨j, r, hr, -, hhost⟩
    exact List.mem_map.mpr ⟨(j, r), SerialTable.lookup_eq_some_iff.mp hr, hhost⟩
  have hlength := hnodup.length_le_of_subset hsubset
  simp only [tried, List.length_map, List.length_range] at hlength
  omega

/-- The label claimed fits, is no other row's, and is one of those tried or the share id. -/
theorem writeDedupedHostname_some {db db' : DB} {id : Int} {hostname label : String}
    (h : db.writeDedupedHostname id hostname = some (db', label)) :
    exists r, db.row id = some r ∧
      db' = db.updateShare id (fun r => { r with hostname := some label }) ∧
      byteLen label ≤ 63 ∧
      (forall j s, db.row j = some s -> j ≠ id -> s.hostname ≠ some label) ∧
      (label = r.shareId.text ∨
        exists n, n ≤ db.shares.rows.length + 1 ∧ db.firstFree id hostname n = true ∧
          label = candidate hostname n) := by
  unfold writeDedupedHostname at h
  unfold readShareId at h
  cases hr : db.row id with
  | none =>
      rw [hr] at h
      cases h
  | some r =>
      rw [hr] at h
      refine ⟨r, rfl, ?_⟩
      simp only [Option.map_some] at h
      split at h
      · rename_i hsearch
        cases h
        rcases searchLabel_claimed hsearch with ⟨k, hone, hk, hlabel, hshort, hwrite, htaken⟩
        rcases writeHostname_eq_some hr hwrite with ⟨hdb, hfree⟩
        refine ⟨hdb, hshort, hfree, Or.inr ⟨k, by omega, ?_, hlabel⟩⟩
        have huntaken : db.labelTaken id (candidate hostname k) = false := by
          rw [← Bool.not_eq_true, labelTaken_iff, ← hlabel]
          intro hhosted
          rcases hhosted with ⟨j, q, hq, hj, hhost⟩
          exact hfree j q hq hj hhost
        unfold firstFree
        simp only [huntaken, Bool.and_eq_true, decide_eq_true_eq, List.all_eq_true,
          List.mem_range, Bool.or_eq_true]
        refine ⟨⟨hone, rfl⟩, ?_⟩
        intro m hm
        by_cases hzero : m = 0
        · exact Or.inl hzero
        · exact Or.inr (htaken m (by omega) hm)
      · cases h
      · rcases Option.map_eq_some_iff.mp h with ⟨next, hwrite, heq⟩
        cases heq
        rcases writeHostname_eq_some hr hwrite with ⟨hdb, hfree⟩
        refine ⟨hdb, ?_, hfree, Or.inl rfl⟩
        rw [r.shareId.byteLen_eq]
        decide

/-- A label is claimed unless another row is labelled with this share's id. -/
theorem exists_writeDedupedHostname {db : DB} {id : Int} {r : ShareRow} (hr : db.row id = some r)
    (hfree : forall j s, db.row j = some s -> j ≠ id -> s.hostname ≠ some r.shareId.text)
    (hostname : String) :
    exists db' label, db.writeDedupedHostname id hostname = some (db', label) := by
  unfold writeDedupedHostname readShareId
  rw [hr]
  simp only [Option.map_some]
  cases hsearch : db.searchLabel id hostname (db.shares.rows.length + 1) 1 with
  | unfinished => exact absurd hsearch (searchLabel_finishes (Nat.lt_succ_self _))
  | claimed db' label => exact ⟨db', label, rfl⟩
  | tooLong =>
      cases hwrite : db.writeHostname id r.shareId.text with
      | some db' => exact ⟨db', r.shareId.text, by simp⟩
      | none =>
          rcases writeHostname_eq_none hwrite with ⟨j, s, hs, hj, hhost⟩
          exact absurd hhost (hfree j s hs hj)

end DB

end Guest
end WispersAccess
