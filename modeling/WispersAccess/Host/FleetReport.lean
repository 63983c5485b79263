import WispersAccess.Foundation.Grouping

/-!
# The report on all shares

`waserver status` asks about every share at once, and counts the groups of each
backend and API key once.
-/

namespace WispersAccess
namespace Host
namespace Status

open Foundation

/-- State specific to the Wispers Connect transport. -/
structure WispersConnectState where
  apiKey : String
  connectivityGroupId : String
  /-- Base URL of a self-hosted backend. -/
  backend : Option String
  deriving DecidableEq, Repr

def managedApiBase : String := "https://connect.wispers.dev/api/v1"

/-- The REST API's base, from what `--backend` says. -/
def apiBase : Option String -> String
  | some b => String.ofList (b.toList.reverse.dropWhile (· = '/')).reverse ++ "/api/v1"
  | none => managedApiBase

/-- Everything before the first dot. -/
def keyId (apiKey : String) : Option String :=
  if '.' ∈ apiKey.toList then some (String.ofList (apiKey.toList.takeWhile (· ≠ '.'))) else none

/-- The domain's use of its connectivity groups. -/
structure GroupsStats where
  count : Int32
  max : Option Int32
  deriving DecidableEq, Repr

structure GroupsQuota where
  backend : Option String
  shares : List String
  keyId : Option String
  count : Int32
  max : Option Int32
  deriving DecidableEq, Repr

/-- One `GET /stats` to send. -/
structure QuotaTarget where
  apiBase : String
  apiKey : String
  backend : Option String
  shares : List String
  deriving DecidableEq, Repr

/-- One target for each backend and API key. -/
def byApiKey : Collector (String × WispersConnectState) QuotaTarget (String × String) where
  keyOf share := (apiBase share.2.backend, share.2.apiKey)
  key target := (target.apiBase, target.apiKey)
  create share := ⟨apiBase share.2.backend, share.2.apiKey, share.2.backend, [share.1]⟩
  merge target share := { target with shares := target.shares ++ [share.1] }
  key_create _ := rfl
  key_merge _ _ := rfl

/-- A share as its directory holds it; `none` where it has no Wispers Connect state. -/
abbrev Stored := Except String (Option WispersConnectState)

def connectShare : String × Stored -> Option (String × WispersConnectState)
  | (name, Except.ok (some wcs)) => some (name, wcs)
  | _ => none

def quotaTargets (stored : List (String × Stored)) : List QuotaTarget :=
  byApiKey.collect (stored.filterMap connectShare)

def quotaOf (getStats : String -> String -> Option GroupsStats) (t : QuotaTarget) :
    Option GroupsQuota :=
  (getStats t.apiBase t.apiKey).map fun stats =>
    ⟨t.backend, t.shares, keyId t.apiKey, stats.count, stats.max⟩

def gatherGroupsQuota (getStats : String -> String -> Option GroupsStats)
    (stored : List (String × Stored)) : Option (List GroupsQuota) :=
  let quotas := (quotaTargets stored).filterMap (quotaOf getStats)
  if quotas = [] then none else some quotas

theorem getD_gatherGroupsQuota (getStats : String -> String -> Option GroupsStats)
    (stored : List (String × Stored)) :
    (gatherGroupsQuota getStats stored).getD [] =
      (quotaTargets stored).filterMap (quotaOf getStats) := by
  unfold gatherGroupsQuota
  by_cases hnone : (quotaTargets stored).filterMap (quotaOf getStats) = []
  · rw [if_pos hnone, hnone]
    rfl
  · rw [if_neg hnone]
    rfl

section
variable {ShareStatus : Type _}

/-- Each task puts its share's status in the share's place. -/
def gatherShares (stored : List (String × Stored)) (finished : List (Nat × ShareStatus)) :
    List ShareStatus :=
  (placeAll (stored.map fun _ => none) (finished.map fun r => (r.1, some r.2))).filterMap id

/-- Shares in the order of their names. -/
def sortedNames (names : List String) : List String :=
  names.mergeSort fun a b => decide (a ≤ b)

/-- The tasks have all finished, in some order. -/
def AllFinished (gather : String -> Stored -> ShareStatus) (stored : List (String × Stored))
    (finished : List (Nat × ShareStatus)) : Prop :=
  finished.Perm ((stored.map fun s => gather s.1 s.2).zipIdx.map Prod.swap)

theorem gatherShares_eq {gather : String -> Stored -> ShareStatus}
    {stored : List (String × Stored)} {finished : List (Nat × ShareStatus)}
    (h : AllFinished gather stored finished) :
    gatherShares stored finished = stored.map fun s => gather s.1 s.2 := by
  have hplaces : placeAll (stored.map fun _ => none) (finished.map fun r => (r.1, some r.2)) =
      (stored.map fun s => gather s.1 s.2).map some := by
    refine placeAll_of_perm (by simp) ?_
    refine (h.map _).trans (List.Perm.of_eq ?_)
    simp only [List.zipIdx_map, List.map_map]
    rfl
  unfold gatherShares
  rw [hplaces, List.filterMap_map]
  exact List.filterMap_some ..

end

/-!
## Each API key is counted once
-/

theorem shares_foldl (shares : List (String × WispersConnectState)) (target : QuotaTarget) :
    (shares.foldl byApiKey.merge target).shares = target.shares ++ shares.map Prod.fst := by
  induction shares generalizing target with
  | nil => exact (List.append_nil _).symm
  | cons share rest ih =>
      rw [List.foldl_cons, ih]
      exact List.append_assoc target.shares [share.1] _

/-- A target has the shares with its backend and key, in their order. -/
theorem shares_of_mem_targets {stored : List (String × Stored)} {t : QuotaTarget}
    (h : t ∈ quotaTargets stored) :
    t.shares = ((stored.filterMap connectShare).filter fun share =>
      (apiBase share.2.backend, share.2.apiKey) = (t.apiBase, t.apiKey)).map Prod.fst := by
  have hgroup := Collector.mem_collect_iff.mp h
  change byApiKey.groupOf ((stored.filterMap connectShare).filter fun share =>
    (apiBase share.2.backend, share.2.apiKey) = (t.apiBase, t.apiKey)) = some t at hgroup
  cases hshares : (stored.filterMap connectShare).filter fun share =>
      (apiBase share.2.backend, share.2.apiKey) = (t.apiBase, t.apiKey) with
  | nil =>
      rw [hshares] at hgroup
      cases hgroup
  | cons first rest =>
      rw [hshares] at hgroup
      have ht := Option.some.inj hgroup
      rw [← ht]
      exact shares_foldl rest (byApiKey.create first)

theorem mem_connectShare {stored : List (String × Stored)} {name : String}
    {wcs : WispersConnectState} :
    (name, wcs) ∈ stored.filterMap connectShare <-> (name, Except.ok (some wcs)) ∈ stored := by
  rw [List.mem_filterMap]
  constructor
  · intro h
    rcases h with ⟨⟨name', state⟩, hmem, hconnect⟩
    rcases state with _ | _ | wcs'
    · cases hconnect
    · cases hconnect
    · cases hconnect
      exact hmem
  · intro h
    exact ⟨(name, Except.ok (some wcs)), h, rfl⟩

theorem mem_shares_iff {stored : List (String × Stored)} {t : QuotaTarget}
    (h : t ∈ quotaTargets stored) {name : String} :
    name ∈ t.shares <-> exists wcs, (name, Except.ok (some wcs)) ∈ stored ∧
      apiBase wcs.backend = t.apiBase ∧ wcs.apiKey = t.apiKey := by
  rw [shares_of_mem_targets h, List.mem_map]
  simp only [List.mem_filter, decide_eq_true_eq, Prod.mk.injEq]
  constructor
  · intro hname
    rcases hname with ⟨⟨name', wcs⟩, ⟨hmem, hkey⟩, rfl⟩
    exact ⟨wcs, mem_connectShare.mp hmem, hkey⟩
  · intro hname
    rcases hname with ⟨wcs, hmem, hkey⟩
    exact ⟨(name, wcs), ⟨mem_connectShare.mpr hmem, hkey⟩, rfl⟩

/-- Every share with Wispers Connect state counts for the target of its backend and key. -/
theorem exists_target {stored : List (String × Stored)} {name : String}
    {wcs : WispersConnectState} (h : (name, Except.ok (some wcs)) ∈ stored) :
    exists t, t ∈ quotaTargets stored ∧ t.apiBase = apiBase wcs.backend ∧
      t.apiKey = wcs.apiKey := by
  have hkey : (apiBase wcs.backend, wcs.apiKey) ∈
      (quotaTargets stored).map byApiKey.key :=
    Collector.mem_keys_collect.mpr
      (List.mem_map.mpr ⟨(name, wcs), mem_connectShare.mpr h, rfl⟩)
  rcases List.mem_map.mp hkey with ⟨t, ht, heq⟩
  exact ⟨t, ht, congrArg Prod.fst heq, congrArg Prod.snd heq⟩

/-- Two targets with a share in common are one, where every name is there once. -/
theorem target_unique {stored : List (String × Stored)} (hnames : (stored.map Prod.fst).Nodup)
    {t u : QuotaTarget} (ht : t ∈ quotaTargets stored) (hu : u ∈ quotaTargets stored)
    {name : String} (hnameT : name ∈ t.shares) (hnameU : name ∈ u.shares) : t = u := by
  rcases (mem_shares_iff ht).mp hnameT with ⟨wcs, hmem, hbase, hkey⟩
  rcases (mem_shares_iff hu).mp hnameU with ⟨wcs', hmem', hbase', hkey'⟩
  have hsame := List.inj_on_of_nodup_map hnames hmem hmem' rfl
  cases hsame
  refine List.inj_on_of_nodup_map (Collector.nodup_collect (c := byApiKey) _) ht hu ?_
  show (t.apiBase, t.apiKey) = (u.apiBase, u.apiKey)
  rw [← hbase, ← hkey, ← hbase', ← hkey']

theorem pairwise_disjoint_shares {stored : List (String × Stored)}
    (hnames : (stored.map Prod.fst).Nodup) :
    (quotaTargets stored).Pairwise fun t u => List.Disjoint t.shares u.shares := by
  have hnodup : (quotaTargets stored).Nodup :=
    List.Nodup.of_map _ (Collector.nodup_collect (c := byApiKey) _)
  refine hnodup.pairwise_of_forall_ne ?_
  intro t ht u hu hne name hnameT hnameU
  exact hne (target_unique hnames ht hu hnameT hnameU)

theorem fst_of_connectShare {s : String × Stored} {share : String × WispersConnectState}
    (h : share ∈ connectShare s) : share.1 = s.1 := by
  rcases s with ⟨name, _ | _ | wcs⟩
  · cases h
  · cases h
  · cases h
    rfl

theorem nodup_shares {stored : List (String × Stored)} (hnames : (stored.map Prod.fst).Nodup)
    {t : QuotaTarget} (h : t ∈ quotaTargets stored) : t.shares.Nodup := by
  rw [shares_of_mem_targets h]
  refine List.pairwise_map.mpr (List.Pairwise.filter _ ?_)
  refine List.Pairwise.filterMap _ ?_ (List.pairwise_map.mp hnames)
  intro s s' hne share hshare share' hshare'
  rw [fst_of_connectShare hshare, fst_of_connectShare hshare']
  exact hne

theorem mem_quotas {getStats : String -> String -> Option GroupsStats}
    {stored : List (String × Stored)} {q : GroupsQuota} :
    q ∈ (gatherGroupsQuota getStats stored).getD [] <->
      exists t stats, t ∈ quotaTargets stored ∧ getStats t.apiBase t.apiKey = some stats ∧
        q = ⟨t.backend, t.shares, keyId t.apiKey, stats.count, stats.max⟩ := by
  rw [getD_gatherGroupsQuota, List.mem_filterMap]
  constructor
  · intro h
    rcases h with ⟨t, ht, hq⟩
    rcases Option.map_eq_some_iff.mp hq with ⟨stats, hstats, rfl⟩
    exact ⟨t, stats, ht, hstats, rfl⟩
  · intro h
    rcases h with ⟨t, stats, ht, hstats, rfl⟩
    exact ⟨t, ht, Option.map_eq_some_iff.mpr ⟨stats, hstats, rfl⟩⟩

/-!
## The whole report
-/

structure FleetReport (ShareStatus : Type _) where
  shares : List ShareStatus
  groupsQuota : Option (List GroupsQuota)

/-- `gather_fleet`, from the names in the shares directory. -/
def gatherFleet {ShareStatus : Type _} (names : List String) (load : String -> Stored)
    (getStats : String -> String -> Option GroupsStats) (finished : List (Nat × ShareStatus)) :
    FleetReport ShareStatus :=
  let stored := (sortedNames names).map fun name => (name, load name)
  ⟨gatherShares stored finished, gatherGroupsQuota getStats stored⟩

theorem perm_sortedNames (names : List String) : (sortedNames names).Perm names :=
  List.mergeSort_perm names _

theorem ascending_sortedNames (names : List String) :
    (sortedNames names).Pairwise fun a b => a ≤ b := by
  have hle : (sortedNames names).Pairwise fun a b => decide (a ≤ b) = true := by
    refine List.pairwise_mergeSort ?_ ?_ names
    · intro a b c hab hbc
      exact decide_eq_true (String.le_trans (of_decide_eq_true hab) (of_decide_eq_true hbc))
    · intro a b
      simp only [Bool.or_eq_true, decide_eq_true_eq]
      exact String.le_total a b
  exact hle.imp fun hdec => of_decide_eq_true hdec

section
variable (names : List String) (load : String -> Stored)
  (getStats : String -> String -> Option GroupsStats)

/-- The quotas count each share that has one once, for its own backend and key. -/
structure CountsOnce (quotas : List GroupsQuota) : Prop where
  once : (quotas.flatMap GroupsQuota.shares).Nodup
  counted : forall q name, q ∈ quotas -> name ∈ q.shares -> name ∈ names ∧
    exists wcs, load name = Except.ok (some wcs) ∧
      getStats (apiBase wcs.backend) wcs.apiKey = some ⟨q.count, q.max⟩ ∧
      q.keyId = keyId wcs.apiKey
  together : forall q name other wcs wcs', q ∈ quotas -> name ∈ q.shares -> other ∈ names ->
    load name = Except.ok (some wcs) -> load other = Except.ok (some wcs') ->
      (other ∈ q.shares <->
        apiBase wcs'.backend = apiBase wcs.backend ∧ wcs'.apiKey = wcs.apiKey)
  covered : forall name wcs, name ∈ names -> load name = Except.ok (some wcs) ->
    getStats (apiBase wcs.backend) wcs.apiKey ≠ none -> exists q, q ∈ quotas ∧ name ∈ q.shares

end

variable {names : List String} {load : String -> Stored}
  {getStats : String -> String -> Option GroupsStats}

theorem mem_stored {name : String} {state : Stored} :
    (name, state) ∈ (sortedNames names).map (fun name => (name, load name)) <->
      name ∈ names ∧ load name = state := by
  rw [List.mem_map]
  constructor
  · intro h
    rcases h with ⟨name', hmem, heq⟩
    cases heq
    exact ⟨(perm_sortedNames names).mem_iff.mp hmem, rfl⟩
  · intro h
    rcases h with ⟨hmem, rfl⟩
    exact ⟨name, (perm_sortedNames names).mem_iff.mpr hmem, rfl⟩

theorem nodup_stored (hnames : names.Nodup) :
    (((sortedNames names).map fun name => (name, load name)).map Prod.fst).Nodup := by
  rw [List.map_map]
  show ((sortedNames names).map fun name => name).Nodup
  rw [List.map_id']
  exact (perm_sortedNames names).nodup_iff.mpr hnames

theorem quotas_countOnce (hnames : names.Nodup) :
    CountsOnce names load getStats
      ((gatherGroupsQuota getStats ((sortedNames names).map fun name => (name, load name))).getD
        []) where
  once := by
    rw [getD_gatherGroupsQuota]
    refine List.nodup_flatMap.mpr ⟨?_, ?_⟩
    · intro q hq
      rcases List.mem_filterMap.mp hq with ⟨t, ht, hquota⟩
      rcases Option.map_eq_some_iff.mp hquota with ⟨stats, -, rfl⟩
      exact nodup_shares (nodup_stored hnames) ht
    · have hnodup : (((sortedNames names).map fun name => (name, load name)).map Prod.fst).Nodup :=
        nodup_stored hnames
      have hdisjoint := pairwise_disjoint_shares hnodup
      refine List.Pairwise.filterMap _ ?_ hdisjoint
      intro t u htu q hq q' hq'
      rcases Option.map_eq_some_iff.mp hq with ⟨stats, -, rfl⟩
      rcases Option.map_eq_some_iff.mp hq' with ⟨stats', -, rfl⟩
      exact htu
  counted := by
    intro q name hq hname
    rcases mem_quotas.mp hq with ⟨t, stats, ht, hstats, rfl⟩
    rcases (mem_shares_iff ht).mp hname with ⟨wcs, hmem, hbase, hkey⟩
    rcases mem_stored.mp hmem with ⟨hlisted, hload⟩
    refine ⟨hlisted, wcs, hload, ?_, ?_⟩
    · rw [hbase, hkey]
      exact hstats
    · rw [hkey]
  together := by
    intro q name other wcs wcs' hq hname hother hload hload'
    rcases mem_quotas.mp hq with ⟨t, stats, ht, -, rfl⟩
    rcases (mem_shares_iff ht).mp hname with ⟨wcs₀, hmem, hbase, hkey⟩
    rcases mem_stored.mp hmem with ⟨-, hload₀⟩
    rw [hload] at hload₀
    cases hload₀
    refine (mem_shares_iff ht).trans ?_
    rw [hbase, hkey]
    constructor
    · intro h
      rcases h with ⟨wcs₁, hmem₁, hsame⟩
      rcases mem_stored.mp hmem₁ with ⟨-, hload₁⟩
      rw [hload'] at hload₁
      cases hload₁
      exact hsame
    · intro h
      exact ⟨wcs', mem_stored.mpr ⟨hother, hload'⟩, h⟩
  covered := by
    intro name wcs hname hload hstats
    rcases exists_target (mem_stored.mpr ⟨hname, hload⟩) with ⟨t, ht, hbase, hkey⟩
    rcases Option.ne_none_iff_exists'.mp hstats with ⟨stats, hstats⟩
    refine ⟨_, mem_quotas.mpr ⟨t, stats, ht, ?_, rfl⟩, ?_⟩
    · rw [hbase, hkey]
      exact hstats
    · exact (mem_shares_iff ht).mpr ⟨wcs, mem_stored.mpr ⟨hname, hload⟩, hbase.symm, hkey.symm⟩

/-- Whatever the order in which the shares answer, each is reported once, by name, and each share
whose backend answers counts for one quota: that of its backend and key. -/
theorem fleet_counts_each_key_once {ShareStatus : Type _} (hnames : names.Nodup)
    (gather : String -> Stored -> ShareStatus) {finished : List (Nat × ShareStatus)}
    (hfinished : AllFinished gather ((sortedNames names).map fun name => (name, load name))
      finished) :
    ((gatherFleet names load getStats finished).shares =
        (sortedNames names).map fun name => gather name (load name)) ∧
      (sortedNames names).Perm names ∧ ((sortedNames names).Pairwise fun a b => a ≤ b) ∧
      CountsOnce names load getStats
        ((gatherFleet names load getStats finished).groupsQuota.getD []) := by
  refine ⟨?_, perm_sortedNames names, ascending_sortedNames names, quotas_countOnce hnames⟩
  exact (gatherShares_eq hfinished).trans (List.map_map ..)

/-- Two shares of one key, with and without a slash after the backend, and one on iroh. -/
def threeShares : String -> Stored
  | "team" => Except.ok (some ⟨"wc_prod_1.s", "g1", some "https://hub.example/"⟩)
  | "home" => Except.ok (some ⟨"wc_prod_1.s", "g2", some "https://hub.example"⟩)
  | _ => Except.ok none

def reportedStatuses : List (Nat × String) :=
  (((sortedNames ["team", "photos", "home"]).map fun name => (name, threeShares name)).map
    fun s => s.1).zipIdx.map Prod.swap

/-- The shares answer last first. -/
theorem three_shares_reported :
    ((gatherFleet ["team", "photos", "home"] threeShares (fun _ _ => some ⟨2, some 5⟩)
        reportedStatuses.reverse).shares =
        (sortedNames ["team", "photos", "home"]).map fun name => name) ∧
      (sortedNames ["team", "photos", "home"]).Perm ["team", "photos", "home"] ∧
      ((sortedNames ["team", "photos", "home"]).Pairwise fun a b => a ≤ b) ∧
      CountsOnce ["team", "photos", "home"] threeShares (fun _ _ => some ⟨2, some 5⟩)
        ((gatherFleet ["team", "photos", "home"] threeShares (fun _ _ => some ⟨2, some 5⟩)
          reportedStatuses.reverse).groupsQuota.getD []) :=
  fleet_counts_each_key_once (by decide) (fun name _ => name) (List.reverse_perm reportedStatuses)

end Status
end Host
end WispersAccess
