import WispersAccess.Desktop.Profiles
import WispersAccess.Foundation.Texts
import WispersAccess.Wire.Message

/-!
# Profiles and command lines

A browser that runs a profile is told by its command line, which names the profile's
directory.  Chromium shows its command line as one argument, joined with spaces, so
arguments are looked for in the joined bytes and not one by one.
-/

namespace WispersAccess
namespace Desktop

open Foundation
open Wire (utf8)

/-!
## Arguments
-/

/-- The encoded bytes of an argument. -/
abbrev Argument := List UInt8

def space : UInt8 := 0x20

def join (cmd : List Argument) : List UInt8 :=
  [space].intercalate cmd

/-- The offsets in `joined` at which an argument starting with `wanted` begins. -/
def argumentStarts (joined wanted : List UInt8) : List Nat :=
  (List.range (joined.length - wanted.length + 1)).filter fun i =>
    (i == 0 || joined[i - 1]? == some space) && wanted.isPrefixOf (joined.drop i)

/-- Whether the command line holds `wanted` as a whole argument, or as a run of whole
arguments. -/
def hasArguments (cmd : List Argument) (wanted : List UInt8) : Bool :=
  (argumentStarts (join cmd) wanted).any fun start =>
    (join cmd)[start + wanted.length]?.all fun b => b == space

/-- Whether an argument of the command line starts with `start`. -/
def hasArgumentPrefix (cmd : List Argument) (start : List UInt8) : Bool :=
  (argumentStarts (join cmd) start).head?.isSome

/-- One share's profile in one browser. -/
structure Profile where
  browser : Browser
  dir : List UInt8
  deriving DecidableEq, Repr

namespace Profile

def chromiumProfileArg (profile : Profile) : Argument :=
  utf8 "--user-data-dir=" ++ profile.dir

/-- Whether the process runs the profile's browser, and is no helper of it. -/
def isMainProcess (profile : Profile) (cmd : List Argument) : Bool :=
  if profile.browser.isFirefox then
    hasArguments cmd (utf8 "-profile " ++ profile.dir) && !hasArguments cmd (utf8 "-contentproc")
  else
    hasArguments cmd profile.chromiumProfileArg && !hasArgumentPrefix cmd (utf8 "--type=")

/-- The browser processes running the profile. -/
def mainProcesses (profile : Profile) (processes : List (List Argument)) :
    List (List Argument) :=
  processes.filter profile.isMainProcess

/-- The arguments that name the profile's directory. -/
def arguments (profile : Profile) : List Argument :=
  if profile.browser.isFirefox then [utf8 "-profile", profile.dir]
  else [profile.chromiumProfileArg]

end Profile

/-!
## Offsets
-/

/-- An offset at which an argument begins splits the joined bytes there. -/
theorem mem_argumentStarts {joined wanted : List UInt8} {start : Nat} :
    start ∈ argumentStarts joined wanted <->
      exists front back, joined = front ++ wanted ++ back ∧ BeginsField space front ∧
        front.length = start := by
  unfold argumentStarts
  simp only [List.mem_filter, List.mem_range, Bool.and_eq_true, Bool.or_eq_true, beq_iff_eq,
    List.isPrefixOf_iff_prefix]
  constructor
  · intro h
    rcases h with ⟨hstart, hbegins, back, hback⟩
    have hlength : start ≤ joined.length := by omega
    refine ⟨joined.take start, back, ?_, ?_, List.length_take_of_le hlength⟩
    · rw [List.append_assoc, hback, List.take_append_drop]
    · rcases hbegins with rfl | hspace
      · exact Or.inl rfl
      · by_cases hzero : start = 0
        · rw [hzero]
          exact Or.inl rfl
        · refine Or.inr ⟨joined.take (start - 1), ?_⟩
          have hsucc : start = start - 1 + 1 := by omega
          rw [hsucc, List.take_add_one, Nat.add_sub_cancel, hspace]
          rfl
  · intro h
    rcases h with ⟨front, back, rfl, hbegins, rfl⟩
    refine ⟨?_, ?_, back, ?_⟩
    · simp only [List.length_append]
      omega
    · rcases hbegins with rfl | ⟨before, rfl⟩
      · exact Or.inl rfl
      · refine Or.inr ?_
        simp
    · rw [List.append_assoc, List.drop_left]

/-- Behind the last byte there is nothing, or a space. -/
theorem endsField_iff {front back : List UInt8} :
    ((front ++ back)[front.length]?.all fun b => b == space) = true <->
      EndsField space back := by
  rw [List.getElem?_append_right (Nat.le_refl _), Nat.sub_self]
  cases back with
  | nil => simp [EndsField]
  | cons b back => simp [EndsField]

theorem hasArguments_iff_joined {cmd : List Argument} {wanted : List UInt8} :
    hasArguments cmd wanted = true <->
      exists front back, join cmd = front ++ wanted ++ back ∧ BeginsField space front ∧
        EndsField space back := by
  unfold hasArguments
  rw [List.any_eq_true]
  constructor
  · intro h
    rcases h with ⟨start, hstart, hends⟩
    rcases mem_argumentStarts.mp hstart with ⟨front, back, hjoined, hbegins, rfl⟩
    rw [hjoined, ← List.length_append, endsField_iff] at hends
    exact ⟨front, back, hjoined, hbegins, hends⟩
  · intro h
    rcases h with ⟨front, back, hjoined, hbegins, hends⟩
    refine ⟨front.length, mem_argumentStarts.mpr ⟨front, back, hjoined, hbegins, rfl⟩, ?_⟩
    rw [hjoined, ← List.length_append, endsField_iff]
    exact hends

theorem hasArgumentPrefix_iff_joined {cmd : List Argument} {start : List UInt8} :
    hasArgumentPrefix cmd start = true <->
      exists front back, join cmd = front ++ start ++ back ∧ BeginsField space front := by
  unfold hasArgumentPrefix
  rw [List.isSome_head?]
  constructor
  · intro h
    rcases List.exists_mem_of_ne_nil _ h with ⟨offset, hoffset⟩
    rcases mem_argumentStarts.mp hoffset with ⟨front, back, hjoined, hbegins, -⟩
    exact ⟨front, back, hjoined, hbegins⟩
  · intro h
    rcases h with ⟨front, back, hjoined, hbegins⟩
    exact List.ne_nil_of_mem (mem_argumentStarts.mpr ⟨front, back, hjoined, hbegins, rfl⟩)

/-!
## Whole arguments
-/

section
variable {args cmd : List Argument}

/-- What a process shows as its command line joins to the same bytes. -/
theorem join_shown (hcmd : cmd = args ∨ cmd = [join args]) : join cmd = join args := by
  rcases hcmd with rfl | rfl
  · rfl
  · exact List.intercalate_singleton

theorem join_ne_nil {wanted : List Argument} (hwanted : wanted ≠ [])
    (hnonempty : forall arg, arg ∈ wanted -> arg ≠ []) : join wanted ≠ [] := by
  cases wanted with
  | nil => exact absurd rfl hwanted
  | cons arg rest =>
      have harg := hnonempty arg List.mem_cons_self
      unfold join
      cases rest with
      | nil =>
          rw [List.intercalate_singleton]
          exact harg
      | cons next rest =>
          rw [List.intercalate_cons_cons, List.append_assoc]
          exact List.append_ne_nil_of_left_ne_nil harg _

/-- Nothing is found in a command line without arguments. -/
theorem not_joined_nil {wanted : List UInt8} (hwanted : wanted ≠ []) (front back : List UInt8) :
    join [] ≠ front ++ wanted ++ back := by
  intro h
  have hnil := (List.append_eq_nil_iff.mp h.symm).left
  exact hwanted (List.append_eq_nil_iff.mp hnil).right

theorem hasArguments_iff (hargs : forall arg, arg ∈ args -> space ∉ arg)
    (hcmd : cmd = args ∨ cmd = [join args]) {wanted : List Argument} (hwanted : wanted ≠ [])
    (hnonempty : forall arg, arg ∈ wanted -> arg ≠ [] ∧ space ∉ arg) :
    hasArguments cmd (join wanted) = true <-> wanted <:+: args := by
  rw [hasArguments_iff_joined, join_shown hcmd]
  cases args with
  | nil =>
      have hjoined := join_ne_nil hwanted fun arg h => (hnonempty arg h).left
      refine iff_of_false ?_ ?_
      · intro h
        rcases h with ⟨front, back, hnil, -⟩
        exact not_joined_nil hjoined front back hnil
      · exact fun h => hwanted (List.infix_nil.mp h)
  | cons arg rest =>
      have hfields := infix_iff_joined (List.cons_ne_nil arg rest) hargs hwanted
        fun arg h => (hnonempty arg h).right
      exact hfields.symm

theorem hasArgumentPrefix_iff (hargs : forall arg, arg ∈ args -> space ∉ arg)
    (hcmd : cmd = args ∨ cmd = [join args]) {start : List UInt8} (hstart : start ≠ [])
    (hspace : space ∉ start) :
    hasArgumentPrefix cmd start = true <-> exists arg, arg ∈ args ∧ start <+: arg := by
  rw [hasArgumentPrefix_iff_joined, join_shown hcmd]
  cases args with
  | nil =>
      refine iff_of_false ?_ ?_
      · intro h
        rcases h with ⟨front, back, hnil, -⟩
        exact not_joined_nil hstart front back hnil
      · intro h
        rcases h with ⟨arg, hmem, -⟩
        cases hmem
  | cons arg rest =>
      have hfields := exists_prefix_iff_joined (List.cons_ne_nil arg rest) hargs hspace
      exact hfields.symm

/-!
## Processes of a profile
-/

namespace Profile

variable {profile : Profile}

theorem arguments_ne_nil : profile.arguments ≠ [] := by
  unfold arguments
  split
  · exact List.cons_ne_nil _ _
  · exact List.cons_ne_nil _ _

theorem arguments_whole (hdir : profile.dir ≠ []) (hspace : space ∉ profile.dir) {arg : Argument}
    (h : arg ∈ profile.arguments) : arg ≠ [] ∧ space ∉ arg := by
  have hflag : utf8 "-profile" ≠ [] ∧ space ∉ utf8 "-profile" := by decide
  have hoption : space ∉ utf8 "--user-data-dir=" := by decide
  unfold arguments at h
  split at h
  · rcases List.mem_cons.mp h with rfl | hlast
    · exact hflag
    · rw [List.mem_singleton.mp hlast]
      exact ⟨hdir, hspace⟩
  · rw [List.mem_singleton.mp h]
    unfold chromiumProfileArg
    constructor
    · exact List.append_ne_nil_of_right_ne_nil _ hdir
    · rw [List.mem_append, not_or]
      exact ⟨hoption, hspace⟩

/-- A main process has the arguments that name the profile's directory. -/
theorem hasArguments_of_isMainProcess (h : profile.isMainProcess cmd = true) :
    hasArguments cmd (join profile.arguments) = true := by
  have hflag : utf8 "-profile " = utf8 "-profile" ++ [space] := by decide
  unfold isMainProcess at h
  unfold arguments
  split at h
  · rename_i hfirefox
    rw [if_pos hfirefox]
    rw [hflag] at h
    unfold join
    rw [List.intercalate_cons_cons, List.intercalate_singleton]
    exact (Bool.and_eq_true_iff.mp h).left
  · rename_i hfirefox
    rw [if_neg hfirefox]
    unfold join
    rw [List.intercalate_singleton]
    exact (Bool.and_eq_true_iff.mp h).left

end Profile

/-- Arguments are found just where the command line has them whole, and so no process of another
profile is taken for one of this profile. -/
theorem profiles_told_apart (hargs : forall arg, arg ∈ args -> space ∉ arg)
    (hcmd : cmd = args ∨ cmd = [join args]) :
    (forall wanted : List Argument, wanted ≠ [] ->
      (forall arg, arg ∈ wanted -> arg ≠ [] ∧ space ∉ arg) ->
        (hasArguments cmd (join wanted) = true <-> wanted <:+: args)) ∧
    (forall start : List UInt8, start ≠ [] -> space ∉ start ->
      (hasArgumentPrefix cmd start = true <-> exists arg, arg ∈ args ∧ start <+: arg)) ∧
    (forall (profile : Profile) (other : List UInt8), profile.dir ≠ [] -> space ∉ profile.dir ->
      profile.dir ≠ other ->
      (forall dir, { profile with dir := dir }.arguments <:+: args -> dir = other) ->
        profile.isMainProcess cmd = false) := by
  refine ⟨?_, ?_, ?_⟩
  · intro wanted hwanted hwhole
    exact hasArguments_iff hargs hcmd hwanted hwhole
  · intro start hstart hspace
    exact hasArgumentPrefix_iff hargs hcmd hstart hspace
  · intro profile other hdir hspace hother hnames
    rw [Bool.eq_false_iff]
    intro hmain
    have hfound := Profile.hasArguments_of_isMainProcess hmain
    rw [hasArguments_iff hargs hcmd Profile.arguments_ne_nil
      fun arg h => Profile.arguments_whole hdir hspace h] at hfound
    exact hother (hnames profile.dir hfound)

end

/-!
## A directory that begins like another
-/

def chromeArguments : List Argument :=
  [utf8 "/opt/chrome", utf8 "--user-data-dir=/profiles/s2", utf8 "https://x/"]

theorem profiles_told_apart_by_whole_directory :
    hasArguments [join chromeArguments] (join [utf8 "--user-data-dir=/profiles/s2"]) = true ∧
      ¬ hasArguments [join chromeArguments] (join [utf8 "--user-data-dir=/profiles/s"]) = true := by
  have hargs : forall arg, arg ∈ chromeArguments -> space ∉ arg := by decide
  have hcmd : [join chromeArguments] = chromeArguments ∨
      [join chromeArguments] = [join chromeArguments] := Or.inr rfl
  have happart := profiles_told_apart hargs hcmd
  constructor
  · exact (happart.left _ (by decide) (by decide)).mpr (by decide)
  · exact fun h => absurd ((happart.left _ (by decide) (by decide)).mp h) (by decide)

end Desktop
end WispersAccess
