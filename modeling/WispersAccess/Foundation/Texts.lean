import WispersAccess.Foundation.Digits

/-!
# Texts and their parts

Splitting a text at a separator, trimming it and reading a number off it, and
lists of fields that are each followed by a separator.
-/

namespace WispersAccess
namespace Foundation

/-!
## ASCII
-/

/-- A property of ASCII characters is one of 128 characters. -/
theorem forall_ascii {p : Char -> Prop} (h : forall n : Fin 128, p (Char.ofNat n.val)) :
    forall c : Char, c.toNat < 128 -> p c := by
  intro c hc
  have hsame := h ⟨c.toNat, hc⟩
  rwa [Char.ofNat_toNat] at hsame

theorem ascii_of_isAlphanum {c : Char} (h : c.isAlphanum = true) : c.toNat < 128 := by
  have hranges : ((decide (c.val ≥ 'A'.val ∧ c.val ≤ 'Z'.val) ||
      (decide (c.val ≥ 'a'.val) && decide (c.val ≤ 'z'.val))) ||
      (decide (c.val ≥ '0'.val) && decide (c.val ≤ '9'.val))) = true := h
  simp only [Bool.or_eq_true, Bool.and_eq_true, decide_eq_true_eq] at hranges
  rcases hranges with (⟨-, hle⟩ | ⟨-, hle⟩) | ⟨-, hle⟩
  · exact Nat.lt_of_le_of_lt hle (by decide)
  · exact Nat.lt_of_le_of_lt hle (by decide)
  · exact Nat.lt_of_le_of_lt hle (by decide)

theorem ascii_of_isDigit {c : Char} (h : c.isDigit = true) : c.toNat < 128 := by
  apply ascii_of_isAlphanum
  show (c.isAlpha || c.isDigit) = true
  rw [h, Bool.or_true]

/-- `to_ascii_lowercase`. -/
def asciiLowercase (s : String) : String :=
  String.ofList (s.toList.map Char.toLower)

theorem toLower_eq_self {c : Char} (h : ¬ ('A' ≤ c ∧ c ≤ 'Z')) : c.toLower = c := by
  unfold Char.toLower
  split
  · rename_i hupper
    exact absurd hupper h
  · rfl

@[simp] theorem toLower_toLower (c : Char) : c.toLower.toLower = c.toLower := by
  by_cases hupper : 'A' ≤ c ∧ c ≤ 'Z'
  · have hall : forall c : Char, c.toNat < 128 -> c.toLower.toLower = c.toLower :=
      forall_ascii (by decide)
    exact hall c (Nat.lt_of_le_of_lt hupper.right (by decide))
  · rw [toLower_eq_self hupper, toLower_eq_self hupper]

@[simp] theorem asciiLowercase_idem (s : String) :
    asciiLowercase (asciiLowercase s) = asciiLowercase s := by
  unfold asciiLowercase
  rw [String.toList_ofList, List.map_map]
  congr 1
  exact List.map_congr_left fun c _ => toLower_toLower c

/-- A text without uppercase letters is its own lowercase. -/
theorem asciiLowercase_eq_self {s : String}
    (h : forall c, c ∈ s.toList -> ¬ ('A' ≤ c ∧ c ≤ 'Z')) : asciiLowercase s = s := by
  have hmap : s.toList.map Char.toLower = s.toList := by
    rw [List.map_congr_left fun c hc => toLower_eq_self (h c hc)]
    exact List.map_id' s.toList
  unfold asciiLowercase
  rw [hmap, String.ofList_toList]

/-!
## Splitting
-/

section
variable {α : Type _} [DecidableEq α]

/-- What stands before and after the first separator. -/
def splitOnce (sep : α) : List α -> Option (List α × List α)
  | [] => none
  | c :: cs =>
      if c = sep then some ([], cs) else (splitOnce sep cs).map fun p => (c :: p.1, p.2)

/-- What stands before and after the last separator. -/
def rsplitOnce (sep : α) (cs : List α) : Option (List α × List α) :=
  (splitOnce sep cs.reverse).map fun p => (p.2.reverse, p.1.reverse)

theorem splitOnce_append {sep : α} {xs : List α} (h : sep ∉ xs) (ys : List α) :
    splitOnce sep (xs ++ sep :: ys) = some (xs, ys) := by
  induction xs with
  | nil =>
      rw [List.nil_append, splitOnce, if_pos rfl]
  | cons x xs ih =>
      rw [List.mem_cons, not_or] at h
      have hx : x ≠ sep := fun heq => h.left heq.symm
      rw [List.cons_append, splitOnce, if_neg hx, ih h.right]
      rfl

theorem splitOnce_eq_none_iff {sep : α} {cs : List α} :
    splitOnce sep cs = none <-> sep ∉ cs := by
  induction cs with
  | nil => simp [splitOnce]
  | cons c cs ih =>
      by_cases hc : c = sep
      · simp [splitOnce, hc]
      · have hc' : sep ≠ c := fun heq => hc heq.symm
        simp [splitOnce, hc, hc', ih]

theorem splitOnce_some {sep : α} {cs xs ys : List α} (h : splitOnce sep cs = some (xs, ys)) :
    cs = xs ++ sep :: ys ∧ sep ∉ xs := by
  induction cs generalizing xs with
  | nil => cases h
  | cons c cs ih =>
      rw [splitOnce] at h
      split at h
      · rename_i hc
        cases h
        rw [hc]
        exact ⟨rfl, List.not_mem_nil⟩
      · rename_i hc
        rcases Option.map_eq_some_iff.mp h with ⟨⟨zs, ws⟩, hrest, heq⟩
        cases heq
        rcases ih hrest with ⟨rfl, hzs⟩
        refine ⟨rfl, ?_⟩
        rw [List.mem_cons, not_or]
        exact ⟨fun heq => hc heq.symm, hzs⟩

theorem rsplitOnce_append {sep : α} {ys : List α} (h : sep ∉ ys) (xs : List α) :
    rsplitOnce sep (xs ++ sep :: ys) = some (xs, ys) := by
  have hreverse : (xs ++ sep :: ys).reverse = ys.reverse ++ sep :: xs.reverse := by
    simp
  have hys : sep ∉ ys.reverse := fun hmem => h (List.mem_reverse.mp hmem)
  unfold rsplitOnce
  rw [hreverse, splitOnce_append hys]
  simp

theorem rsplitOnce_eq_none_iff {sep : α} {cs : List α} :
    rsplitOnce sep cs = none <-> sep ∉ cs := by
  unfold rsplitOnce
  rw [Option.map_eq_none_iff, splitOnce_eq_none_iff, List.mem_reverse]

theorem rsplitOnce_some {sep : α} {cs xs ys : List α} (h : rsplitOnce sep cs = some (xs, ys)) :
    cs = xs ++ sep :: ys ∧ sep ∉ ys := by
  unfold rsplitOnce at h
  rcases Option.map_eq_some_iff.mp h with ⟨⟨zs, ws⟩, hsplit, heq⟩
  cases heq
  rcases splitOnce_some hsplit with ⟨hreverse, hnot⟩
  constructor
  · have hback := congrArg List.reverse hreverse
    rw [List.reverse_reverse] at hback
    rw [hback]
    simp
  · exact fun hmem => hnot (List.mem_reverse.mp hmem)

/-!
## Fields between separators
-/

theorem not_mem_of_mem_splitOn {sep : α} {cs field : List α} (h : field ∈ cs.splitOn sep) :
    sep ∉ field := by
  induction cs generalizing field with
  | nil =>
      rw [List.splitOn_nil, List.mem_singleton] at h
      rw [h]
      exact List.not_mem_nil
  | cons c cs ih =>
      rw [List.splitOn_cons_eq_if_modifyHead] at h
      split at h
      · rcases List.mem_cons.mp h with rfl | hrest
        · exact List.not_mem_nil
        · exact ih hrest
      · rename_i hc
        rcases List.exists_cons_of_ne_nil (List.splitOn_ne_nil sep cs) with ⟨f, fs, hsplit⟩
        rw [hsplit, List.modifyHead_cons, List.mem_cons] at h
        rcases h with rfl | hrest
        · have hf := ih (hsplit ▸ List.mem_cons_self)
          rw [List.mem_cons, not_or]
          exact ⟨fun heq => hc (by rw [heq]; exact beq_self_eq_true c), hf⟩
        · exact ih (hsplit ▸ List.mem_cons_of_mem f hrest)

omit [DecidableEq α] in
/-- A text ends the way its last field does. -/
theorem getLast?_intercalate {sep : α} {fields : List (List α)} {field : List α}
    (hfield : fields.getLast? = some field) (hne : field ≠ []) :
    ([sep].intercalate fields).getLast? = field.getLast? := by
  induction fields with
  | nil => cases hfield
  | cons f rest ih =>
      cases rest with
      | nil =>
          cases hfield
          simp
      | cons g rest =>
          rw [List.getLast?_cons_cons] at hfield
          have hback := ih hfield
          have hsome : ([sep].intercalate (g :: rest)).getLast? ≠ none := by
            rw [hback]
            exact fun hnone => hne (List.getLast?_eq_none_iff.mp hnone)
          rcases Option.ne_none_iff_exists'.mp hsome with ⟨c, hc⟩
          rw [List.intercalate_cons_cons, List.getLast?_append, hc, Option.some_or, ← hback, hc]

/-!
## Fields followed by separators
-/

/-- Every field, followed by the separator. -/
def terminated (sep : α) (fields : List (List α)) : List α :=
  fields.flatMap fun field => field ++ [sep]

/-- Where as many separators stand before, the same stands before. -/
theorem append_separator_inj {sep : α} {xs xs' ys ys' : List α}
    (h : xs ++ sep :: ys = xs' ++ sep :: ys') (hcount : xs.count sep = xs'.count sep) :
    xs = xs' ∧ ys = ys' := by
  induction xs generalizing xs' with
  | nil =>
      cases xs' with
      | nil => exact ⟨rfl, (List.cons.inj h).right⟩
      | cons x xs' =>
          -- the first character is a separator that only one side counts
          have hx : x = sep := (List.cons.inj h).left.symm
          rw [hx, List.count_cons_self] at hcount
          cases hcount
  | cons x xs ih =>
      cases xs' with
      | nil =>
          have hx : x = sep := (List.cons.inj h).left
          rw [hx, List.count_cons_self] at hcount
          cases hcount
      | cons x' xs' =>
          rcases List.cons.inj h with ⟨rfl, htail⟩
          rw [List.count_cons, List.count_cons] at hcount
          rcases ih htail (Nat.add_right_cancel hcount) with ⟨rfl, rfl⟩
          exact ⟨rfl, rfl⟩

/-- Fields that have as many separators each can be told apart. -/
theorem terminated_injective {sep : α} {fields fields' : List (List α)}
    (h : terminated sep fields = terminated sep fields')
    (hcounts : fields.map (List.count sep) = fields'.map (List.count sep)) :
    fields = fields' := by
  induction fields generalizing fields' with
  | nil =>
      cases fields' with
      | nil => rfl
      | cons field' rest' => cases hcounts
  | cons field rest ih =>
      cases fields' with
      | nil => cases hcounts
      | cons field' rest' =>
          rcases List.cons.inj hcounts with ⟨hcount, hrest⟩
          have hflat : field ++ sep :: terminated sep rest =
              field' ++ sep :: terminated sep rest' := by
            simpa [terminated] using h
          rcases append_separator_inj hflat hcount with ⟨rfl, htail⟩
          rw [ih htail hrest]

/-!
## Splitting at every separator
-/

theorem splitOn_map {β : Type _} [DecidableEq β] {f : α -> β}
    (hf : Function.Injective f) (a : α) (xs : List α) :
    (xs.map f).splitOn (f a) = (xs.splitOn a).map (List.map f) := by
  induction xs with
  | nil => rfl
  | cons x xs ih =>
      rw [List.map_cons, List.splitOn_cons_eq_if_modifyHead, List.splitOn_cons_eq_if_modifyHead, ih]
      by_cases hx : x = a
      · simp [hx]
      · have hx' : f x ≠ f a := fun h => hx (hf h)
        simp only [beq_iff_eq, hx, hx', if_false]
        cases xs.splitOn a with
        | nil => rfl
        | cons part rest => rfl

theorem splitOn_terminated {sep : α} {fields : List (List α)}
    (h : forall field, field ∈ fields -> sep ∉ field) (rest : List α) :
    (terminated sep fields ++ rest).splitOn sep = fields ++ rest.splitOn sep := by
  induction fields with
  | nil => rfl
  | cons field fields ih =>
      have hlist : terminated sep (field :: fields) ++ rest =
          field ++ sep :: (terminated sep fields ++ rest) := by
        simp [terminated]
      rw [hlist, List.splitOn_append_cons_self_of_not_mem (h field List.mem_cons_self),
        ih fun f hf => h f (List.mem_cons_of_mem _ hf), List.cons_append]

/-- Parts that are joined by a separator and some glue come apart at the separators. -/
theorem splitOn_joined {sep : α} {glue : List α} (hglue : sep ∉ glue) {part : List α}
    {parts : List (List α)} (h : forall p, p ∈ part :: parts -> sep ∉ p) :
    ((sep :: glue).intercalate (part :: parts)).splitOn sep = part :: parts.map (glue ++ ·) := by
  induction parts generalizing part with
  | nil =>
      rw [List.intercalate_singleton, List.splitOn_eq_singleton (h part List.mem_cons_self)]
      rfl
  | cons next rest ih =>
      have hnext : forall p, p ∈ (glue ++ next) :: rest -> sep ∉ p := by
        intro p hp
        rcases List.mem_cons.mp hp with hfirst | hrest
        · rw [hfirst, List.mem_append, not_or]
          exact ⟨hglue, h next (List.mem_cons_of_mem _ List.mem_cons_self)⟩
        · exact h p (List.mem_cons_of_mem _ (List.mem_cons_of_mem _ hrest))
      have hshift : glue ++ (sep :: glue).intercalate (next :: rest) =
          (sep :: glue).intercalate ((glue ++ next) :: rest) := by
        cases rest with
        | nil => rw [List.intercalate_singleton, List.intercalate_singleton]
        | cons last rest =>
            rw [List.intercalate_cons_cons, List.intercalate_cons_cons, List.append_assoc,
              List.append_assoc, List.append_assoc]
      rw [List.intercalate_cons_cons, List.append_assoc, List.cons_append, hshift,
        List.splitOn_append_cons_self_of_not_mem (h part List.mem_cons_self), ih hnext]
      rfl

/-!
## Where fields begin and end
-/

/-- A field begins behind this. -/
def BeginsField (sep : α) (front : List α) : Prop :=
  front = [] ∨ exists before, front = before ++ [sep]

/-- A field ends before this. -/
def EndsField (sep : α) (back : List α) : Prop :=
  back = [] ∨ exists after, back = sep :: after

omit [DecidableEq α] in
theorem intercalate_append {sep : α} {fields fields' : List (List α)} (h : fields ≠ [])
    (h' : fields' ≠ []) :
    [sep].intercalate (fields ++ fields') =
      [sep].intercalate fields ++ sep :: [sep].intercalate fields' := by
  induction fields with
  | nil => exact absurd rfl h
  | cons field rest ih =>
      cases rest with
      | nil =>
          rw [List.singleton_append, List.intercalate_cons_of_ne_nil h',
            List.intercalate_singleton, List.append_assoc]
          rfl
      | cons next rest =>
          have hrest := ih (List.cons_ne_nil next rest)
          rw [List.cons_append, List.cons_append, List.intercalate_cons_cons, ← List.cons_append,
            hrest, List.intercalate_cons_cons, List.append_assoc, List.append_assoc,
            List.append_assoc]

omit [DecidableEq α] in
/-- Joined fields begin where the ones before them have ended. -/
theorem exists_front (sep : α) (before : List (List α)) {fields : List (List α)}
    (h : fields ≠ []) :
    exists front, BeginsField sep front ∧
      [sep].intercalate (before ++ fields) = front ++ [sep].intercalate fields := by
  by_cases hbefore : before = []
  · exact ⟨[], Or.inl rfl, by rw [hbefore]; rfl⟩
  · refine ⟨[sep].intercalate before ++ [sep], Or.inr ⟨_, rfl⟩, ?_⟩
    rw [intercalate_append hbefore h, List.append_assoc]
    rfl

omit [DecidableEq α] in
theorem exists_back (sep : α) {fields : List (List α)} (h : fields ≠ [])
    (after : List (List α)) :
    exists back, EndsField sep back ∧
      [sep].intercalate (fields ++ after) = [sep].intercalate fields ++ back := by
  by_cases hafter : after = []
  · exact ⟨[], Or.inl rfl, by rw [hafter, List.append_nil, List.append_nil]⟩
  · exact ⟨sep :: [sep].intercalate after, Or.inr ⟨_, rfl⟩, intercalate_append h hafter⟩

/-- What begins a field is split off before it. -/
theorem BeginsField.splitOn {sep : α} {front : List α} (h : BeginsField sep front) :
    exists before, forall xs, (front ++ xs).splitOn sep = before ++ xs.splitOn sep := by
  rcases h with rfl | ⟨front, rfl⟩
  · exact ⟨[], fun xs => rfl⟩
  · refine ⟨front.splitOn sep, fun xs => ?_⟩
    rw [List.append_assoc, List.singleton_append, List.splitOn_append_cons_self]

theorem EndsField.splitOn {sep : α} {back : List α} (h : EndsField sep back) :
    exists after, forall xs : List α, (xs ++ back).splitOn sep = xs.splitOn sep ++ after := by
  rcases h with rfl | ⟨back, rfl⟩
  · exact ⟨[], fun xs => by rw [List.append_nil, List.append_nil]⟩
  · exact ⟨back.splitOn sep, fun xs => List.splitOn_append_cons_self xs back⟩

/-- A run of fields stands in what joins them, from the beginning of a field to an end of one. -/
theorem infix_iff_joined {sep : α} {fields wanted : List (List α)} (hfields : fields ≠ [])
    (hsep : forall field, field ∈ fields -> sep ∉ field) (hwanted : wanted ≠ [])
    (hwantedsep : forall field, field ∈ wanted -> sep ∉ field) :
    wanted <:+: fields <->
      exists front back, [sep].intercalate fields = front ++ [sep].intercalate wanted ++ back ∧
        BeginsField sep front ∧ EndsField sep back := by
  constructor
  · intro h
    rcases h with ⟨before, after, rfl⟩
    rcases exists_back sep hwanted after with ⟨back, hback, hafter⟩
    have hnonempty : wanted ++ after ≠ [] := List.append_ne_nil_of_left_ne_nil hwanted after
    rcases exists_front sep before hnonempty with ⟨front, hfront, hbefore⟩
    refine ⟨front, back, ?_, hfront, hback⟩
    rw [List.append_assoc, hbefore, hafter, List.append_assoc]
  · intro h
    rcases h with ⟨front, back, hjoined, hfront, hback⟩
    rcases hfront.splitOn with ⟨before, hbefore⟩
    rcases hback.splitOn with ⟨after, hafter⟩
    have hsplit := congrArg (List.splitOn sep) hjoined
    rw [List.splitOn_intercalate sep hsep hfields, List.append_assoc, hbefore, hafter,
      List.splitOn_intercalate sep hwantedsep hwanted] at hsplit
    exact ⟨before, after, by rw [hsplit, List.append_assoc]⟩

theorem splitOn_append_of_not_mem {sep : α} {xs : List α} (h : sep ∉ xs) (ys : List α) :
    (xs ++ ys).splitOn sep = (ys.splitOn sep).modifyHead (xs ++ ·) := by
  induction xs with
  | nil =>
      rw [List.nil_append]
      cases ys.splitOn sep with
      | nil => rfl
      | cons first rest => rfl
  | cons x xs ih =>
      rw [List.mem_cons, not_or] at h
      have hx : (x == sep) = false := beq_eq_false_iff_ne.mpr fun heq => h.left heq.symm
      rw [List.cons_append, List.splitOn_cons_eq_if_modifyHead, hx, ih h.right]
      cases ys.splitOn sep with
      | nil => rfl
      | cons first rest => rfl

/-- A field starts with a text without separators where the text stands behind the beginning
of a field. -/
theorem exists_prefix_iff_joined {sep : α} {fields : List (List α)} {start : List α}
    (hfields : fields ≠ []) (hsep : forall field, field ∈ fields -> sep ∉ field)
    (hstart : sep ∉ start) :
    (exists field, field ∈ fields ∧ start <+: field) <->
      exists front back, [sep].intercalate fields = front ++ start ++ back ∧
        BeginsField sep front := by
  constructor
  · intro h
    rcases h with ⟨field, hmem, rest, rfl⟩
    rcases List.append_of_mem hmem with ⟨before, after, rfl⟩
    rcases exists_front sep before (List.cons_ne_nil (start ++ rest) after) with
      ⟨front, hfront, hbefore⟩
    rcases exists_back sep (List.cons_ne_nil (start ++ rest) []) after with
      ⟨back, -, hafter⟩
    rw [List.singleton_append, List.intercalate_singleton] at hafter
    refine ⟨front, rest ++ back, ?_, hfront⟩
    rw [hbefore, hafter]
    simp only [List.append_assoc]
  · intro h
    rcases h with ⟨front, back, hjoined, hfront⟩
    rcases hfront.splitOn with ⟨before, hbefore⟩
    have hsplit := congrArg (List.splitOn sep) hjoined
    rw [List.splitOn_intercalate sep hsep hfields, List.append_assoc, hbefore,
      splitOn_append_of_not_mem hstart] at hsplit
    rcases List.exists_cons_of_ne_nil (List.splitOn_ne_nil sep back) with ⟨first, rest, hback⟩
    rw [hback, List.modifyHead_cons] at hsplit
    refine ⟨start ++ first, ?_, List.prefix_append start first⟩
    rw [hsplit]
    exact List.mem_append_right before List.mem_cons_self

theorem mem_of_mem_splitOn {a x : α} {part xs : List α}
    (hpart : part ∈ xs.splitOn a) (hx : x ∈ part) : x ∈ xs := by
  induction xs generalizing part with
  | nil =>
      rw [List.splitOn_nil, List.mem_singleton] at hpart
      rw [hpart] at hx
      exact hx
  | cons y ys ih =>
      rw [List.splitOn_cons_eq_if_modifyHead] at hpart
      split at hpart
      · rcases List.mem_cons.mp hpart with rfl | hpart
        · cases hx
        · exact List.mem_cons_of_mem _ (ih hpart hx)
      · cases hrest : ys.splitOn a with
        | nil =>
            rw [hrest] at hpart
            cases hpart
        | cons first rest =>
            rw [hrest, List.modifyHead_cons] at hpart
            rcases List.mem_cons.mp hpart with rfl | hpart
            · rcases List.mem_cons.mp hx with rfl | hx
              · exact List.mem_cons_self ..
              · exact List.mem_cons_of_mem _ (ih (by rw [hrest]; exact List.mem_cons_self ..) hx)
            · exact List.mem_cons_of_mem _
                (ih (by rw [hrest]; exact List.mem_cons_of_mem _ hpart) hx)

end

/-!
## Trimming
-/

/-- Unicode's White_Space. -/
def isWhiteSpace (c : Char) : Bool :=
  let n := c.toNat
  (0x09 ≤ n && n ≤ 0x0d) || n == 0x20 || n == 0x85 || n == 0xa0 || n == 0x1680 ||
    (0x2000 ≤ n && n ≤ 0x200a) || n == 0x2028 || n == 0x2029 || n == 0x202f || n == 0x205f ||
    n == 0x3000

/-- `str::trim`. -/
def trim (s : String) : String :=
  String.ofList
    ((s.toList.dropWhile isWhiteSpace).reverse.dropWhile isWhiteSpace).reverse

theorem dropWhile_congr {α : Type _} {p q : α -> Bool} {xs : List α}
    (h : forall x, x ∈ xs -> p x = q x) : xs.dropWhile p = xs.dropWhile q := by
  induction xs with
  | nil => rfl
  | cons x xs ih =>
      rw [List.dropWhile_cons, List.dropWhile_cons, h x (List.mem_cons_self ..),
        ih fun y hy => h y (List.mem_cons_of_mem _ hy)]

theorem dropWhile_eq_self {p : Char -> Bool} {cs : List Char}
    (h : forall c, c ∈ cs -> p c = false) : cs.dropWhile p = cs := by
  cases cs with
  | nil => rfl
  | cons c cs => rw [List.dropWhile_cons_of_neg (by rw [h c List.mem_cons_self]; nofun)]

theorem trim_eq_self {s : String} (h : forall c, c ∈ s.toList -> isWhiteSpace c = false) :
    trim s = s := by
  unfold trim
  rw [dropWhile_eq_self h, dropWhile_eq_self fun c hc => h c (List.mem_reverse.mp hc),
    List.reverse_reverse, String.ofList_toList]

section
variable {α : Type _} (p : α -> Bool)

/-- A list without what passes `p` at its ends. -/
def trimEnds (xs : List α) : List α :=
  ((xs.dropWhile p).reverse.dropWhile p).reverse

variable {p} {xs : List α} {x : α}

theorem dropWhile_of_head (h : forall x, xs.head? = some x -> p x = false) :
    xs.dropWhile p = xs := by
  cases xs with
  | nil => rfl
  | cons x xs => rw [List.dropWhile_cons_of_neg (by rw [h x rfl]; nofun)]

/-- A list is trimmed if what is first and last in it does not pass. -/
theorem trimEnds_of_ends (hhead : forall x, xs.head? = some x -> p x = false)
    (hlast : forall x, xs.getLast? = some x -> p x = false) : trimEnds p xs = xs := by
  unfold trimEnds
  rw [dropWhile_of_head hhead,
    dropWhile_of_head fun x hx => hlast x (by rwa [List.head?_reverse] at hx),
    List.reverse_reverse]

theorem getLast?_trimEnds (h : (trimEnds p xs).getLast? = some x) : p x = false := by
  unfold trimEnds at h
  rw [List.getLast?_reverse] at h
  have hnot := List.head?_dropWhile_not p (xs.dropWhile p).reverse
  rw [h] at hnot
  simpa using hnot

theorem head?_trimEnds (h : (trimEnds p xs).head? = some x) : p x = false := by
  have hfront : trimEnds p xs <+: xs.dropWhile p := by
    unfold trimEnds
    rw [← List.reverse_suffix, List.reverse_reverse]
    exact List.dropWhile_suffix p
  rcases hfront with ⟨rest, hrest⟩
  have hnot := List.head?_dropWhile_not p xs
  rw [← hrest, List.head?_append, h] at hnot
  simpa using hnot

@[simp] theorem trimEnds_trimEnds (xs : List α) : trimEnds p (trimEnds p xs) = trimEnds p xs :=
  trimEnds_of_ends (fun _ hx => head?_trimEnds hx) fun _ hx => getLast?_trimEnds hx

/-- What is trimmed away passes. -/
theorem mem_trimEnds_or (h : x ∈ xs) : x ∈ trimEnds p xs ∨ p x = true := by
  have hside : forall ys : List α, x ∈ ys -> x ∈ ys.dropWhile p ∨ p x = true := by
    intro ys hmem
    rw [← List.takeWhile_append_dropWhile (p := p) (l := ys), List.mem_append] at hmem
    rcases hmem with hfront | hback
    · exact Or.inr (List.all_eq_true.mp List.all_takeWhile x hfront)
    · exact Or.inl hback
  unfold trimEnds
  rcases hside xs h with hback | hpasses
  · rw [List.mem_reverse]
    exact hside _ (List.mem_reverse.mpr hback)
  · exact Or.inr hpasses

theorem trimEnds_cons_of_pos (h : p x = true) : trimEnds p (x :: xs) = trimEnds p xs := by
  unfold trimEnds
  rw [List.dropWhile_cons_of_pos h]

theorem trimEnds_append_of_pos (h : p x = true) : trimEnds p (xs ++ [x]) = trimEnds p xs := by
  unfold trimEnds
  rw [List.dropWhile_append]
  split
  · rename_i hempty
    rw [List.isEmpty_iff.mp hempty, List.dropWhile_cons_of_pos h]
    rfl
  · rw [List.reverse_append, List.reverse_singleton, List.singleton_append,
      List.dropWhile_cons_of_pos h]

variable [DecidableEq α]

/-- What has no separators goes to the last field. -/
theorem exists_last_field (sep : α) (xs : List α) :
    exists before last, forall ys, sep ∉ ys -> (xs ++ ys).splitOn sep = before ++ [last ++ ys] := by
  cases hsplit : rsplitOnce sep xs with
  | none =>
      have hxs : sep ∉ xs := rsplitOnce_eq_none_iff.mp hsplit
      refine ⟨[], xs, fun ys hys => ?_⟩
      have hboth : sep ∉ xs ++ ys := fun hmem => (List.mem_append.mp hmem).elim hxs hys
      rw [List.splitOn_eq_singleton hboth, List.nil_append]
  | some p =>
      rcases p with ⟨front, last⟩
      rcases rsplitOnce_some hsplit with ⟨rfl, hlast⟩
      refine ⟨front.splitOn sep, last, fun ys hys => ?_⟩
      have hboth : sep ∉ last ++ ys := fun hmem => (List.mem_append.mp hmem).elim hlast hys
      rw [List.append_assoc, List.cons_append, List.splitOn_append_cons_self,
        List.splitOn_eq_singleton hboth]

/-- Fields that are trimmed are those of the trimmed text. -/
theorem map_trimEnds_splitOn {sep : α} (hsep : p sep = false) (xs : List α) :
    ((trimEnds p xs).splitOn sep).map (trimEnds p) = (xs.splitOn sep).map (trimEnds p) := by
  have hne : forall x, p x = true -> sep ≠ x := by
    intro x hx heq
    rw [heq, hx] at hsep
    cases hsep
  have hfront : forall xs : List α,
      ((xs.dropWhile p).splitOn sep).map (trimEnds p) = (xs.splitOn sep).map (trimEnds p) := by
    intro xs
    induction xs with
    | nil => rfl
    | cons x xs ih =>
        cases hx : p x with
        | false => rw [List.dropWhile_cons_of_neg (by rw [hx]; exact Bool.false_ne_true)]
        | true =>
            rw [List.dropWhile_cons_of_pos hx, ih, ← List.singleton_append,
              splitOn_append_of_not_mem (fun hmem => hne x hx (List.mem_singleton.mp hmem))]
            cases xs.splitOn sep with
            | nil => rfl
            | cons first rest =>
                rw [List.modifyHead_cons, List.map_cons, List.map_cons, List.singleton_append,
                  trimEnds_cons_of_pos hx]
  have hback : forall xs : List α, ((xs.dropWhile p).reverse.splitOn sep).map (trimEnds p) =
      (xs.reverse.splitOn sep).map (trimEnds p) := by
    intro xs
    induction xs with
    | nil => rfl
    | cons x xs ih =>
        cases hx : p x with
        | false => rw [List.dropWhile_cons_of_neg (by rw [hx]; exact Bool.false_ne_true)]
        | true =>
            rcases exists_last_field sep xs.reverse with ⟨before, last, hlast⟩
            have hwith := hlast [x] fun hmem => hne x hx (List.mem_singleton.mp hmem)
            have hwithout := hlast [] List.not_mem_nil
            rw [List.append_nil, List.append_nil] at hwithout
            rw [List.dropWhile_cons_of_pos hx, ih, List.reverse_cons, hwith, hwithout,
              List.map_append, List.map_append, List.map_singleton, List.map_singleton,
              trimEnds_append_of_pos hx]
  unfold trimEnds at hback hfront ⊢
  rw [hback, List.reverse_reverse, hfront]

end

theorem trim_eq (s : String) : trim s = String.ofList (trimEnds isWhiteSpace s.toList) :=
  rfl

/-- A text is trimmed if its first and last characters are no white space. -/
theorem trim_eq_self_of_ends {s : String}
    (hhead : forall c, s.toList.head? = some c -> isWhiteSpace c = false)
    (hlast : forall c, s.toList.getLast? = some c -> isWhiteSpace c = false) : trim s = s := by
  rw [trim_eq, trimEnds_of_ends hhead hlast, String.ofList_toList]

theorem getLast?_trim {s : String} {c : Char} (h : (trim s).toList.getLast? = some c) :
    isWhiteSpace c = false := by
  rw [trim_eq, String.toList_ofList] at h
  exact getLast?_trimEnds h

theorem head?_trim {s : String} {c : Char} (h : (trim s).toList.head? = some c) :
    isWhiteSpace c = false := by
  rw [trim_eq, String.toList_ofList] at h
  exact head?_trimEnds h

/-!
## Numbers
-/

/-- The value of decimal digits. -/
def decimalValue (cs : List Char) : Option Nat :=
  cs.foldlM (fun value c =>
    if '0' ≤ c ∧ c ≤ '9' then some (value * 10 + (c.toNat - '0'.toNat)) else none) 0

def stripSign : List Char -> List Char
  | '+' :: rest => rest
  | cs => cs

/-- `u16::from_str`: a sign is taken, an empty text and an overflow are not. -/
def parseU16 (s : String) : Option UInt16 :=
  if stripSign s.toList = [] then none
  else
    match decimalValue (stripSign s.toList) with
    | none => none
    | some n => if n < 65536 then some (UInt16.ofNat n) else none

theorem decimalValue_of_digits {cs : List Char} (h : forall c, c ∈ cs -> c.isDigit = true) :
    decimalValue cs = some (Nat.ofDigitChars 10 cs 0) := by
  have hfrom : forall (cs : List Char) (value : Nat), (forall c, c ∈ cs -> c.isDigit = true) ->
      cs.foldlM (fun value c =>
        if '0' ≤ c ∧ c ≤ '9' then some (value * 10 + (c.toNat - '0'.toNat)) else none) value =
          some (Nat.ofDigitChars 10 cs value) := by
    intro cs
    induction cs with
    | nil =>
        intro value _
        rfl
    | cons c cs ih =>
        intro value h
        have hc := h c List.mem_cons_self
        have hrange : '0' ≤ c ∧ c ≤ '9' := by
          simp only [Char.isDigit, Bool.and_eq_true, decide_eq_true_eq] at hc
          exact hc
        rw [List.foldlM_cons, if_pos hrange]
        show cs.foldlM _ (value * 10 + (c.toNat - '0'.toNat)) = _
        rw [ih _ fun d hd => h d (List.mem_cons_of_mem _ hd), Nat.ofDigitChars_cons,
          Nat.mul_comm 10 value]
  exact hfrom cs 0 h

theorem stripSign_toDigits (n : Nat) :
    stripSign (Nat.toDigits 10 n) = Nat.toDigits 10 n := by
  unfold stripSign
  split
  · rename_i rest hplus
    have hmem : '+' ∈ Nat.toDigits 10 n := by
      rw [hplus]
      exact List.mem_cons_self
    exact absurd (isDigit_of_mem_toDigits hmem) (by decide)
  · rfl

/-- A text with a hexadecimal value has no sign. -/
theorem stripSign_of_hexValue {cs : List Char} {n : Nat} (h : hexValue cs = some n) :
    stripSign cs = cs := by
  unfold stripSign
  split
  · unfold hexValue at h
    rw [List.foldlM_cons, hexDigit_plus] at h
    cases h
  · rfl

/-- A port is read back from its digits. -/
theorem parseU16_toString (n : UInt16) : parseU16 (toString n.toNat) = some n := by
  have hdigits : (toString n.toNat).toList = Nat.toDigits 10 n.toNat := by
    rw [Nat.toString_eq_ofList_toDigits, String.toList_ofList]
  unfold parseU16
  rw [hdigits, stripSign_toDigits, if_neg Nat.toDigits_ne_nil,
    decimalValue_of_digits fun c hc => isDigit_of_mem_toDigits hc, Nat.ofDigitChars_ten_toDigits]
  show (if n.toNat < 65536 then some (UInt16.ofNat n.toNat) else none) = some n
  rw [if_pos n.toNat_lt, UInt16.ofNat_toNat]

example : parseU16 "8080" = some 8080 ∧ parseU16 "65536" = none := by decide

end Foundation
end WispersAccess
