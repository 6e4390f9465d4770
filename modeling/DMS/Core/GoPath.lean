import DMS.Core.GoText

/-! # File paths

`filepath.Clean` and `filepath.Join` where the separator is `/`. A path is its root, if it
has one, and the stack of names that is left when the empty ones, `.` and `..` are taken
out. A `..` that has nothing to remove stays at the bottom of a path without a root.
-/

namespace DMS

open List

def slash : UInt8 := 47

def parentDir : GoString := ascii ".."

/-- One name on the stack of those before it, the last one first. -/
def pushPart (rooted : Bool) (stack : List GoString) (part : GoString) : List GoString :=
  if part = [] ∨ part = ascii "." then stack
  else if part = parentDir then
    match stack with
    | [] => if rooted then [] else [parentDir]
    | top :: rest => if top = parentDir then parentDir :: top :: rest else rest
  else part :: stack

def pushParts (rooted : Bool) : List GoString → List GoString → List GoString :=
  List.foldl (pushPart rooted)

theorem pushParts_cons (rooted : Bool) (stack : List GoString) (part : GoString)
    (parts : List GoString) : pushParts rooted stack (part :: parts) =
      pushParts rooted (pushPart rooted stack part) parts := rfl

def isRooted (path : GoString) : Bool := path.head? == some slash

def renderPath (rooted : Bool) (parts : List GoString) : GoString :=
  if rooted then slash :: [slash].intercalate parts
  else if parts = [] then ascii "."
  else [slash].intercalate parts

/-- `filepath.Clean` -/
def cleanPath (path : GoString) : GoString :=
  renderPath (isRooted path) (pushParts (isRooted path) [] (path.splitOn slash)).reverse

/-- `filepath.Join`: elements in front of the first one that is not empty are left out. -/
def joinPath (elems : List GoString) : GoString :=
  match elems.dropWhile (· = []) with
  | [] => []
  | rest => cleanPath ([slash].intercalate rest)

structure IsName (part : GoString) : Prop where
  nonempty : part ≠ []
  notDot : part ≠ ascii "."
  notParent : part ≠ parentDir

variable {part x path : GoString} {rooted : Bool} {stack parts : List GoString}

theorem pushPart_name (h : IsName part) (rooted : Bool)
    (stack : List GoString) : pushPart rooted stack part = part :: stack := by
  unfold pushPart
  rw [if_neg (not_or.mpr ⟨h.nonempty, h.notDot⟩), if_neg h.notParent]

theorem mem_pushPart (h : x ∈ pushPart rooted stack part) :
    x ∈ stack ∨ (x = part ∧ x ≠ [] ∧ x ≠ ascii ".") := by
  unfold pushPart at h
  split at h
  · exact .inl h
  rename_i hpart
  rw [not_or] at hpart
  split at h
  · next hparent =>
    cases stack with
    | nil =>
      dsimp only at h
      split at h
      · cases h
      · obtain rfl := mem_singleton.mp h
        exact .inr ⟨hparent.symm, by decide, by decide⟩
    | cons top rest =>
      dsimp only at h
      split at h
      · rcases mem_cons.mp h with rfl | h
        · exact .inr ⟨hparent.symm, by decide, by decide⟩
        · exact .inl h
      · exact .inl (mem_cons_of_mem top h)
  rcases mem_cons.mp h with rfl | h
  · exact .inr ⟨rfl, hpart⟩
  · exact .inl h

theorem mem_pushParts : ∀ {stack : List GoString}, x ∈ pushParts rooted stack parts →
      x ∈ stack ∨ (x ∈ parts ∧ x ≠ [] ∧ x ≠ ascii ".") := by
  induction parts with
  | nil => exact fun h => .inl h
  | cons part parts ih =>
    intro stack h
    rcases ih h with hpush | ⟨hin, hx⟩
    · rcases mem_pushPart hpush with hstack | ⟨rfl, hx⟩
      · exact .inl hstack
      · exact .inr ⟨.head _, hx⟩
    · exact .inr ⟨mem_cons_of_mem part hin, hx⟩

theorem parentDir_mem_pushPart (h : parentDir ∈ stack)
    (part : GoString) : parentDir ∈ pushPart false stack part := by
  unfold pushPart
  split
  · exact h
  split
  · cases stack with
    | nil => cases h
    | cons top rest =>
      dsimp only
      split
      · exact .head _
      · next htop => exact (mem_cons.mp h).resolve_left (Ne.symm htop)
  · exact mem_cons_of_mem part h

theorem parentDir_mem_pushParts :
    ∀ {stack : List GoString}, parentDir ∈ stack → parentDir ∈ pushParts false stack parts := by
  induction parts with
  | nil => exact fun h => h
  | cons part parts ih => exact fun h => ih (parentDir_mem_pushPart h part)

/-- Names that stay above the bottom of their own stack do not touch one below it. -/
theorem pushPart_append
    (h : parentDir ∉ pushPart false stack part) (rooted : Bool) (below : List GoString) :
    pushPart rooted (stack ++ below) part = pushPart false stack part ++ below := by
  unfold pushPart at h ⊢
  split
  · rfl
  rename_i hpart
  rw [if_neg hpart] at h
  split
  · next hparent =>
    rw [if_pos hparent] at h
    cases stack with
    | nil => exact absurd (.head _) h
    | cons top rest =>
      dsimp only [cons_append] at h ⊢
      split
      · next htop =>
        rw [if_pos htop] at h
        exact absurd (.head _) h
      · rfl
  · rfl

theorem pushParts_append (rooted : Bool) (below : List GoString) :
    ∀ {stack : List GoString}, parentDir ∉ pushParts false stack parts →
      pushParts rooted (stack ++ below) parts = pushParts false stack parts ++ below := by
  induction parts with
  | nil => exact fun _ => rfl
  | cons part parts ih =>
    intro stack h
    rw [pushParts_cons] at h ⊢
    have hpush : parentDir ∉ pushPart false stack part := fun hin =>
      h (parentDir_mem_pushParts hin)
    rw [pushPart_append hpush]
    exact ih h

theorem eq_parentDir_of_mem_pushPart
    (h : parentDir ∈ pushPart false stack part) (hstack : parentDir ∉ stack) :
    stack = [] ∧ part = parentDir := by
  have hpart : part = parentDir := by
    rcases mem_pushPart h with hin | ⟨heq, -⟩
    · exact absurd hin hstack
    · exact heq.symm
  subst hpart
  cases stack with
  | nil => exact ⟨rfl, rfl⟩
  | cons top rest =>
    have htop : top ≠ parentDir := fun heq => hstack (heq ▸ (.head _))
    have hpush : pushPart false (top :: rest) parentDir = rest := by
      exact if_neg htop
    rw [hpush] at h
    exact absurd (mem_cons_of_mem top h) hstack

theorem pushParts_leaves {below} (hx : x ≠ parentDir)
    (hparts : x ∉ parts) (hbelow : x ∉ below) (rooted : Bool) :
    ∀ {stack : List GoString}, x ∉ stack → parentDir ∉ stack →
      parentDir ∈ pushParts false stack parts →
      x ∉ pushParts rooted (stack ++ x :: below) parts := by
  induction parts with
  | nil => exact fun _ hstack h => absurd h hstack
  | cons part parts ih =>
    intro stack hin hstack h
    have hrest : x ∉ parts := fun h => hparts (mem_cons_of_mem part h)
    rw [pushParts_cons] at h ⊢
    by_cases hpush : parentDir ∈ pushPart false stack part
    · obtain ⟨rfl, rfl⟩ := eq_parentDir_of_mem_pushPart hpush hstack
      have hpop : pushPart rooted ([] ++ x :: below) parentDir = below := by
        exact if_neg hx
      rw [hpop]
      intro hmem
      rcases mem_pushParts hmem with h | ⟨h, -⟩
      · exact hbelow h
      · exact hrest h
    rw [pushPart_append hpush]
    refine ih hrest ?_ hpush h
    intro hmem
    rcases mem_pushPart hmem with h | ⟨rfl, -⟩
    · exact hin h
    · exact hparts (.head _)

def rootPart (rooted : Bool) : List GoString := if rooted then [[]] else []

theorem splitOn_renderPath (hparts : ∀ part ∈ parts, slash ∉ part)
    (hne : parts ≠ []) (rooted : Bool) :
    (renderPath rooted parts).splitOn slash = rootPart rooted ++ parts := by
  unfold renderPath
  cases rooted with
  | true =>
    have happ := splitOn_append_cons_self (a := slash) [] ([slash].intercalate parts)
    rwa [splitOn_intercalate slash hparts hne] at happ
  | false =>
    rw [if_neg hne]
    exact splitOn_intercalate slash hparts hne

theorem renderPath_append {rest} (hne : parts ≠ []) (hne' : rest ≠ []) (rooted : Bool) :
    renderPath rooted (parts ++ rest) =
      renderPath rooted parts ++ slash :: [slash].intercalate rest := by
  unfold renderPath
  have happend : parts ++ rest ≠ [] := append_ne_nil_of_left_ne_nil hne rest
  rw [intercalate_append hne hne', if_neg happend, if_neg hne]
  cases rooted with
  | true | false => simp

theorem renderPath_inj {parts'} (hparts : ∀ part ∈ parts, slash ∉ part)
    (hparts' : ∀ part ∈ parts', slash ∉ part) (hne : parts ≠ []) (hne' : parts' ≠ [])
    (h : renderPath rooted parts = renderPath rooted parts') : parts = parts' := by
  have hsplit := congrArg (splitOn slash) h
  rw [splitOn_renderPath hparts hne, splitOn_renderPath hparts' hne'] at hsplit
  exact append_cancel_left hsplit

theorem slash_not_mem_pushParts (hstack : ∀ part ∈ stack, slash ∉ part) :
    ∀ part ∈ pushParts rooted stack (path.splitOn slash), slash ∉ part := by
  intro part h
  rcases mem_pushParts h with h | ⟨h, -⟩
  · exact hstack part h
  · exact not_mem_of_mem_splitOn h

theorem parentDir_not_mem_rooted :
    ∀ {stack : List GoString}, parentDir ∉ stack → parentDir ∉ pushParts true stack parts := by
  induction parts with
  | nil => exact fun h => h
  | cons part parts ih =>
    intro stack h
    refine ih fun hmem => ?_
    by_cases hpush : parentDir ∈ pushPart false stack part
    · obtain ⟨rfl, rfl⟩ := eq_parentDir_of_mem_pushPart hpush h
      exact absurd hmem (by decide)
    have happend := pushPart_append hpush true []
    rw [append_nil, append_nil] at happend
    rw [happend] at hmem
    exact hpush hmem

/-- `strings.TrimPrefix(path, "/")` -/
def trimRoot : GoString → GoString
  | [] => []
  | c :: rest => if c = slash then rest else c :: rest

theorem trimRoot_cons (c : UInt8) (rest : GoString) :
    trimRoot (c :: rest) = if c = slash then rest else c :: rest := rfl

theorem trimRoot_of_not_mem {s} (h : slash ∉ s) : trimRoot s = s := by
  cases s with
  | nil => rfl
  | cons c rest =>
    refine if_neg ?_
    rintro rfl
    exact h (.head _)

theorem trimRoot_renderPath (hparts : ∀ part ∈ parts, slash ∉ part)
    (hnames : ∀ part ∈ parts, part ≠ []) (hne : parts ≠ []) (rooted : Bool) :
    trimRoot (renderPath rooted parts) = [slash].intercalate parts := by
  unfold renderPath
  cases rooted with
  | true => rfl
  | false =>
    obtain ⟨part, rest, rfl⟩ := exists_cons_of_ne_nil hne
    obtain ⟨c, cs, rfl⟩ := exists_cons_of_ne_nil (hnames part (.head _))
    have hc : c ≠ slash := by
      rintro rfl
      exact hparts _ (.head _) (.head _)
    cases rest with
    | nil => simp [intercalate, trimRoot, hc]
    | cons next rest =>
      exact if_neg hc

theorem cleanPath_name {s} (hs : IsName s) (hslash : slash ∉ s) : cleanPath s = s := by
  have hroot : isRooted s = false := by
    obtain ⟨c, cs, rfl⟩ := exists_cons_of_ne_nil hs.nonempty
    have hc : c ≠ slash := fun heq => hslash (heq ▸ (.head _))
    simpa [isRooted] using hc
  rw [cleanPath, hroot, splitOn_eq_singleton hslash]
  change renderPath false (pushPart false [] s).reverse = s
  rw [pushPart_name hs]
  simp [renderPath, intercalate]

theorem cleanPath_parts (path : GoString) :
    ∃ parts, cleanPath path = renderPath (isRooted path) parts ∧
      (∀ part ∈ parts, slash ∉ part ∧ part ≠ [] ∧ part ≠ ascii ".") ∧
      (isRooted path = true → parentDir ∉ parts) := by
  refine ⟨_, rfl, ?_, ?_⟩
  · intro part hpart
    rw [mem_reverse] at hpart
    refine ⟨slash_not_mem_pushParts (by simp) part hpart, ?_⟩
    rcases mem_pushParts hpart with h | ⟨-, h⟩
    · cases h
    · exact h
  intro hroot
  rw [mem_reverse, hroot]
  exact parentDir_not_mem_rooted (by simp)

theorem cleanPath_ne_nil (path : GoString) : cleanPath path ≠ [] := by
  obtain ⟨parts, heq, hparts, -⟩ := cleanPath_parts path
  intro h
  rw [heq] at h
  cases hroot : isRooted path with
  | true =>
    rw [hroot] at h
    cases h
  | false =>
    rw [hroot] at h
    by_cases hne : parts = []
    · subst hne
      exact absurd h (by decide)
    have hsplit := splitOn_renderPath (fun part hin => (hparts part hin).1) hne false
    rw [h] at hsplit
    have hin : [] ∈ rootPart false ++ parts := hsplit ▸ mem_singleton_self []
    exact (hparts [] hin).2.1 rfl

theorem cleanPath_eq_slash_cons {d : GoString} (hd : slash ∉ d)
    (h : cleanPath path = slash :: d) : d = [] ∨ IsName d := by
  obtain ⟨parts, heq, hparts, hrooted⟩ := cleanPath_parts path
  rw [heq] at h
  by_cases hne : parts = []
  · subst hne
    cases hroot : isRooted path with
    | true =>
      rw [hroot] at h
      exact .inl (cons.inj h).2.symm
    | false =>
      rw [hroot] at h
      exact absurd (cons.inj h).1 (by decide)
  have hsplit := splitOn_renderPath (fun part hin => (hparts part hin).1) hne (isRooted path)
  have htwo : (slash :: d).splitOn slash = [[], d] :=
    splitOn_two_parts not_mem_nil hd
  rw [h, htwo] at hsplit
  cases hroot : isRooted path with
  | true =>
    rw [hroot] at hsplit
    obtain rfl : [d] = parts := (cons.inj hsplit).2
    have hin : d ∈ [d] := mem_singleton_self d
    obtain ⟨-, hempty, hdot⟩ := hparts d hin
    exact .inr ⟨hempty, hdot, fun hparent => hrooted hroot (hparent ▸ hin)⟩
  | false =>
    rw [hroot] at hsplit
    have hin : [] ∈ parts := by
      change [] ∈ rootPart false ++ parts
      rw [← hsplit]
      exact .head _
    exact absurd rfl (hparts [] hin).2.1

theorem trimRoot_eq_iff {d} (hd : slash ∉ d) :
    trimRoot path = d ↔ path = d ∨ path = slash :: d := by
  constructor
  · intro h
    cases path with
    | nil => exact .inl h
    | cons c rest =>
      rw [trimRoot_cons] at h
      split at h
      · next hc => exact .inr (by rw [hc, h])
      · exact .inl h
  rintro (rfl | rfl)
  · exact trimRoot_of_not_mem hd
  · rw [trimRoot_cons, if_pos rfl]

def Inside (dir path : GoString) : Prop := ∃ rest, rest ≠ [] ∧ path = dir ++ slash :: rest

theorem inside_renderPath {dir} (hdir : ∀ part ∈ dir, slash ∉ part)
    (hparts : ∀ part ∈ parts, slash ∉ part) (hne : dir ≠ []) (rooted : Bool)
    (h : Inside (renderPath rooted dir) (renderPath rooted parts)) :
    ∃ rest, rest ≠ [] ∧ parts = dir ++ rest := by
  obtain ⟨rest, hrest, heq⟩ := h
  by_cases hparts' : parts = []
  · -- the text is a root or a dot, too short for a directory with a name
    subst hparts'
    have hone : (renderPath rooted []).length = 1 := by
      cases rooted with
      | true | false => rfl
    have hlen := congrArg length heq
    have hpos := length_pos_iff.mpr hrest
    rw [length_append, length_cons] at hlen
    omega
  have hsplit := congrArg (splitOn slash) heq
  rw [splitOn_append_cons_self, splitOn_renderPath hparts hparts',
    splitOn_renderPath hdir hne, append_assoc] at hsplit
  exact ⟨_, splitOn_ne_nil slash rest, append_cancel_left hsplit⟩

end DMS
