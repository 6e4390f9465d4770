import DMS.Core.GoPath

/-! # Directories of volumes

`storage/volume/hostpath.go`. A volume gets a directory under that of its owner, named after its
source or else after itself. Only a source with a separator is cleaned, and the separators that are
left become underscores; everything else is joined to the path as it was received.
-/

namespace DMS.Storage

open List

/-- The fields of `types.VolumeConfig` that the directory comes from. -/
structure VolumeConfig where
  name : GoString
  src : GoString
deriving DecidableEq, Repr

/-- `strings.ReplaceAll(path, "/", "_")` -/
def replaceSlashes (path : GoString) : GoString :=
  path.map fun c => if c = slash then underscore else c

def dirName (v : VolumeConfig) : GoString :=
  if v.src ≠ [] then
    if slash ∉ v.src then v.src
    else replaceSlashes (trimRoot (cleanPath v.src))
  else if v.name ≠ [] then v.name
  else []

def hostPath (workDir ownerID : GoString) (v : VolumeConfig) : GoString :=
  joinPath [workDir, ascii "volumes", ownerID, dirName v]

/-- The identifier of a peer is a text of letters and digits; what matters is that it has no
separator and is neither empty nor a directory of dots. -/
structure PeerID where
  text : GoString
  name : IsName text
  plain : slash ∉ text

def ownerDir (workDir : GoString) (owner : PeerID) : GoString :=
  joinPath [workDir, ascii "volumes", owner.text]

/-- What a volume is of: its name stands in for a source that is not given. -/
def source (v : VolumeConfig) : GoString := if v.src ≠ [] then v.src else v.name

/-- The directories of two volumes, for every work directory and every owner. -/
structure Isolated (v v' : VolumeConfig) : Prop where
  inside : ∀ workDir (owner : PeerID),
    Inside (ownerDir workDir owner) (hostPath workDir owner.text v) ∧
      Inside (ownerDir workDir owner) (hostPath workDir owner.text v')
  apart : ∀ workDir (owner owner' : PeerID), owner.text ≠ owner'.text →
    hostPath workDir owner.text v ≠ hostPath workDir owner'.text v' ∧
      ¬ Inside (hostPath workDir owner.text v) (hostPath workDir owner'.text v') ∧
      ¬ Inside (hostPath workDir owner'.text v') (hostPath workDir owner.text v)
  sources : ∀ workDir (owner : PeerID),
    hostPath workDir owner.text v = hostPath workDir owner.text v' →
      cleanPath (source v) = cleanPath (source v')

def workStack (workDir : GoString) : List GoString :=
  pushParts (isRooted workDir) [] (workDir.splitOn slash)

def ownStack (v : VolumeConfig) : List GoString := pushParts false [] ((dirName v).splitOn slash)

def ownerStack (workDir : GoString) (owner : PeerID) : List GoString :=
  owner.text :: ascii "volumes" :: workStack workDir

theorem isName_volumes : IsName (ascii "volumes") := ⟨by decide, by decide, by decide⟩

theorem joinPath_volumes (dir : GoString) (rest : List GoString) :
    joinPath (dir :: ascii "volumes" :: rest) =
      renderPath (isRooted dir) (pushParts (isRooted dir) (workStack dir)
        (([slash].intercalate (ascii "volumes" :: rest)).splitOn slash)).reverse := by
  unfold joinPath workStack
  cases dir with
  | nil =>
    have hroot : isRooted ([slash].intercalate (ascii "volumes" :: rest)) = false := by
      cases rest with
      | nil => decide
      | cons next rest =>
        rfl
    change cleanPath ([slash].intercalate (ascii "volumes" :: rest)) = _
    rw [cleanPath, hroot]
    rfl
  | cons c cs =>
    change renderPath (isRooted (c :: cs)) (pushParts (isRooted (c :: cs)) []
      (((c :: cs) ++ slash :: [slash].intercalate (ascii "volumes" :: rest)).splitOn
        slash)).reverse = _
    rw [splitOn_append_cons_self, pushParts, foldl_append]

theorem ownerDir_eq (dir : GoString) (owner : PeerID) :
    ownerDir dir owner = renderPath (isRooted dir) (ownerStack dir owner).reverse := by
  have hsplit : ([slash].intercalate [ascii "volumes", owner.text]).splitOn slash =
      [ascii "volumes", owner.text] := by
    refine splitOn_intercalate slash ?_ (by simp)
    intro part hpart
    rcases mem_cons.mp hpart with rfl | hpart
    · decide
    · rw [mem_singleton.mp hpart]
      exact owner.plain
  unfold ownerDir
  rw [joinPath_volumes, hsplit, pushParts_cons, pushParts_cons, pushPart_name isName_volumes,
    pushPart_name owner.name]
  rfl

theorem hostPath_eq (dir : GoString) (owner : PeerID) (v : VolumeConfig) :
    hostPath dir owner.text v =
      renderPath (isRooted dir) (pushParts (isRooted dir) (ownerStack dir owner)
        ((dirName v).splitOn slash)).reverse := by
  have hjoin : [slash].intercalate [ascii "volumes", owner.text, dirName v] =
      ascii "volumes" ++ slash :: (owner.text ++ slash :: dirName v) := by
    simp [intercalate]
  have hvolumes : (ascii "volumes").splitOn slash = [ascii "volumes"] :=
    splitOn_eq_singleton (by decide)
  unfold hostPath
  rw [joinPath_volumes, hjoin, splitOn_append_cons_self, splitOn_append_cons_self,
    hvolumes, splitOn_eq_singleton owner.plain]
  rw [singleton_append, singleton_append, pushParts_cons, pushParts_cons, pushPart_name owner.name]
  rfl

theorem slash_not_mem_ownerStack (dir : GoString) (owner : PeerID) :
    ∀ part ∈ ownerStack dir owner, slash ∉ part := by
  intro part hpart
  rcases mem_cons.mp hpart with rfl | hpart
  · exact owner.plain
  rcases mem_cons.mp hpart with rfl | hpart
  · decide
  · exact slash_not_mem_pushParts (by simp) part hpart

theorem slash_not_mem_ownStack (v : VolumeConfig) : ∀ part ∈ ownStack v, slash ∉ part :=
  slash_not_mem_pushParts (by simp)

structure Stays (v : VolumeConfig) : Prop where
  nonempty : ownStack v ≠ []
  below : parentDir ∉ ownStack v

variable {v : VolumeConfig} {owner : PeerID}

theorem Stays.hostPath_eq (h : Stays v) (dir : GoString) (owner : PeerID) :
    hostPath dir owner.text v = renderPath (isRooted dir)
        ((ownerStack dir owner).reverse ++ (ownStack v).reverse) := by
  rw [Storage.hostPath_eq, ← reverse_append]
  congr 2
  exact pushParts_append (isRooted dir) (ownerStack dir owner) h.below

theorem Stays.inside (h : Stays v) (dir : GoString) (owner : PeerID) :
    Inside (ownerDir dir owner) (hostPath dir owner.text v) := by
  have hown := slash_not_mem_ownStack v
  refine ⟨[slash].intercalate (ownStack v).reverse, ?_, ?_⟩
  · intro hempty
    have hsplit : ([slash].intercalate (ownStack v).reverse).splitOn slash = (ownStack v).reverse :=
      splitOn_intercalate slash (by simpa using hown) (by simpa using h.nonempty)
    rw [hempty] at hsplit
    have hin : [] ∈ ownStack v := mem_reverse.mp (hsplit ▸ mem_singleton_self [])
    rcases mem_pushParts hin with hin | ⟨-, hne, -⟩
    · cases hin
    · exact hne rfl
  rw [h.hostPath_eq, ownerDir_eq]
  exact renderPath_append (by simp [ownerStack]) (by simpa using h.nonempty) _

theorem exists_owner (texts : List GoString) : ∃ owner : PeerID, owner.text ∉ texts := by
  have hbound : ∃ n, ∀ text ∈ texts, text.length ≤ n := by
    induction texts with
    | nil => exact ⟨0, by simp⟩
    | cons text texts ih =>
      obtain ⟨n, hn⟩ := ih
      refine ⟨max text.length n, ?_⟩
      intro other hother
      rcases mem_cons.mp hother with rfl | hother
      · exact Nat.le_max_left _ _
      · exact Nat.le_trans (hn other hother) (Nat.le_max_right _ _)
  obtain ⟨n, hn⟩ := hbound
  -- longer than all of them, of the letter `a`
  have hhead : (replicate (n + 1) (97 : UInt8)).head? = some 97 := rfl
  refine ⟨⟨replicate (n + 1) 97, ⟨?_, ?_, ?_⟩, ?_⟩, ?_⟩
  · simp
  · intro h
    rw [h] at hhead
    exact absurd hhead (by decide)
  · intro h
    rw [h] at hhead
    exact absurd hhead (by decide)
  · intro h
    exact absurd (eq_of_mem_replicate h) (by decide)
  intro h
  have hlen := hn _ h
  rw [length_replicate] at hlen
  omega

theorem stays_iff_inside : Stays v ↔ ∀ dir (owner : PeerID),
      Inside (ownerDir dir owner) (hostPath dir owner.text v) := by
  constructor
  · exact fun h => h.inside
  intro h
  -- an owner whose identifier is nowhere in the directory of the volume
  obtain ⟨owner, howner⟩ := exists_owner (ascii "volumes" :: (dirName v).splitOn slash)
  rw [mem_cons, not_or] at howner
  have hrest := h [] owner
  rw [ownerDir_eq, hostPath_eq] at hrest
  have hstack := slash_not_mem_ownerStack [] owner
  obtain ⟨rest, hne, heq⟩ := inside_renderPath (by simpa using hstack)
    (by simpa using slash_not_mem_pushParts hstack) (by simp [ownerStack]) _ hrest
  have hbelow : parentDir ∉ ownStack v := by
    intro hparent
    have hwork : workStack [] = [] := by decide
    have hgone : owner.text ∉ pushParts false ([] ++ ownerStack [] owner)
        ((dirName v).splitOn slash) :=
      pushParts_leaves owner.name.notParent howner.2 (by simpa [hwork] using howner.1)
        false (by simp) (by simp) hparent
    have hin : owner.text ∈ (ownerStack [] owner).reverse ++ rest := by
      simp [ownerStack]
    rw [← heq, mem_reverse] at hin
    exact hgone hin
  refine ⟨?_, hbelow⟩
  intro hempty
  have hown := pushParts_append false (ownerStack [] owner) hbelow
  change pushParts false (ownerStack [] owner) ((dirName v).splitOn slash) =
    ownStack v ++ ownerStack [] owner at hown
  rw [hempty] at hown
  change (pushParts false (ownerStack [] owner) ((dirName v).splitOn slash)).reverse = _ at heq
  rw [hown] at heq
  exact hne (self_eq_append_right.mp heq)

theorem owner_of_append_eq {dir owner' x y}
    (h : (ownerStack dir owner).reverse ++ x = (ownerStack dir owner').reverse ++ y) :
    owner.text = owner'.text := by
  unfold ownerStack at h
  simp only [reverse_cons, append_assoc] at h
  have hrest := append_cancel_left (append_cancel_left h)
  simp only [singleton_append, cons.injEq] at hrest
  exact hrest.1

theorem slash_not_mem_under (dir : GoString) (owner : PeerID) (v : VolumeConfig) :
    ∀ part ∈ (ownerStack dir owner).reverse ++ (ownStack v).reverse, slash ∉ part := by
  intro part hpart
  rcases mem_append.mp hpart with hpart | hpart
  · exact slash_not_mem_ownerStack dir owner part (mem_reverse.mp hpart)
  · exact slash_not_mem_ownStack v part (mem_reverse.mp hpart)

theorem under_ne_nil (dir : GoString) (owner : PeerID) (v : VolumeConfig) :
    (ownerStack dir owner).reverse ++ (ownStack v).reverse ≠ [] := by
  simp [ownerStack]

theorem Stays.apart {v'} (h : Stays v) (h' : Stays v') (dir : GoString)
    {owner' : PeerID} (hne : owner.text ≠ owner'.text) :
    hostPath dir owner.text v ≠ hostPath dir owner'.text v' ∧
      ¬ Inside (hostPath dir owner.text v) (hostPath dir owner'.text v') := by
  have hparts := slash_not_mem_under dir owner v
  have hparts' := slash_not_mem_under dir owner' v'
  have hnonempty := under_ne_nil dir owner v
  rw [h.hostPath_eq, h'.hostPath_eq]
  constructor
  · intro heq
    exact hne (owner_of_append_eq
      (renderPath_inj hparts hparts' hnonempty (under_ne_nil dir owner' v') heq))
  intro hinside
  obtain ⟨rest, -, heq⟩ := inside_renderPath hparts hparts' hnonempty _ hinside
  rw [append_assoc] at heq
  exact hne (owner_of_append_eq heq.symm)

theorem Stays.hostPath_inj {v'} (h : Stays v) (h' : Stays v') {dir} :
    hostPath dir owner.text v = hostPath dir owner.text v' ↔ ownStack v = ownStack v' := by
  rw [h.hostPath_eq, h'.hostPath_eq]
  constructor
  · intro heq
    have hsame := renderPath_inj (slash_not_mem_under dir owner v)
      (slash_not_mem_under dir owner v') (under_ne_nil dir owner v)
      (under_ne_nil dir owner v') heq
    exact reverse_inj.mp (append_cancel_left hsame)
  · intro heq
    rw [heq]

/-- A source of its own, or a name, that does not lead out of the directory of the owner
nor to it. -/
structure Confined (v : VolumeConfig) : Prop where
  src : v.src ≠ [] →
    cleanPath v.src ≠ ascii "/" ∧ cleanPath v.src ≠ ascii "." ∧ cleanPath v.src ≠ parentDir
  name : v.src = [] → pushParts false [] (v.name.splitOn slash) ≠ [] ∧
    parentDir ∉ pushParts false [] (v.name.splitOn slash)

def directoryByte (v : VolumeConfig) (c : UInt8) : UInt8 :=
  if v.src ≠ [] ∧ c = slash then underscore else c

/-- Sources of different paths that differ only in a leading separator and in separators
against underscores. -/
structure Confusable (v v' : VolumeConfig) : Prop where
  different : cleanPath (source v) ≠ cleanPath (source v')
  alike : (trimRoot (cleanPath (source v))).map (directoryByte v) =
    (trimRoot (cleanPath (source v'))).map (directoryByte v')

theorem replaceSlashes_of_not_mem {s} (h : slash ∉ s) : replaceSlashes s = s := by
  have hbyte : ∀ c ∈ s, (if c = slash then underscore else c) = c := by
    intro c hc
    refine if_neg ?_
    rintro rfl
    exact h hc
  exact (map_congr_left hbyte).trans (map_id s)

theorem slash_not_mem_replaceSlashes (s : GoString) : slash ∉ replaceSlashes s := by
  intro h
  obtain ⟨c, -, hc⟩ := mem_map.mp h
  split at hc
  · exact absurd hc (by decide)
  · next hne => exact hne hc

theorem replaceSlashes_eq_iff {s d} (hd : slash ∉ d) (hd' : underscore ∉ d) :
    replaceSlashes s = d ↔ s = d := by
  constructor
  · rintro rfl
    refine (replaceSlashes_of_not_mem ?_).symm
    intro hin
    exact hd' (mem_map.mpr ⟨slash, hin, if_pos rfl⟩)
  · rintro rfl
    exact replaceSlashes_of_not_mem hd

/-- What is left of a clean path without its root is a name unless the path is a root or a
directory of dots. -/
theorem isName_replaceSlashes_iff {path} : IsName (replaceSlashes (trimRoot (cleanPath path))) ↔
      cleanPath path ≠ ascii "/" ∧ cleanPath path ≠ ascii "." ∧ cleanPath path ≠ parentDir := by
  have hname : ∀ {d : GoString}, slash ∉ d → underscore ∉ d →
      (replaceSlashes (trimRoot (cleanPath path)) = d ↔
        cleanPath path = d ∨ cleanPath path = slash :: d) := fun hd hd' =>
    (replaceSlashes_eq_iff hd hd').trans (trimRoot_eq_iff hd)
  have hroot : ascii "/" = [slash] := by decide
  constructor
  · intro h
    refine ⟨?_, ?_, ?_⟩
    · intro heq
      exact h.nonempty ((hname (by simp) (by simp)).mpr (.inr (heq.trans hroot)))
    · intro heq
      exact h.notDot ((hname (by decide) (by decide)).mpr (.inl heq))
    · intro heq
      exact h.notParent ((hname (by decide) (by decide)).mpr (.inl heq))
  rintro ⟨hne, hdot, hparent⟩
  refine ⟨?_, ?_, ?_⟩
  · intro heq
    rcases (hname (by simp) (by simp)).mp heq with h | h
    · exact cleanPath_ne_nil path h
    · exact hne (h.trans hroot.symm)
  · intro heq
    rcases (hname (by decide) (by decide)).mp heq with h | h
    · exact hdot h
    · exact (cleanPath_eq_slash_cons (by decide) h).elim (by decide) fun h => h.notDot rfl
  intro heq
  rcases (hname (by decide) (by decide)).mp heq with h | h
  · exact hparent h
  · exact (cleanPath_eq_slash_cons (by decide) h).elim (by decide) fun h => h.notParent rfl

theorem dirName_src (h : v.src ≠ []) : slash ∉ dirName v ∧ (IsName (dirName v) ↔
      cleanPath v.src ≠ ascii "/" ∧ cleanPath v.src ≠ ascii "." ∧ cleanPath v.src ≠ parentDir) := by
  rw [dirName, if_pos h]
  split
  · next hslash =>
    refine ⟨hslash, ?_⟩
    constructor
    · intro hname
      rw [cleanPath_name hname hslash]
      refine ⟨?_, hname.notDot, hname.notParent⟩
      intro heq
      rw [heq] at hslash
      exact hslash (by decide)
    rintro ⟨-, hdot, hparent⟩
    refine ⟨h, ?_, ?_⟩
    · intro heq
      rw [heq] at hdot
      exact hdot (by decide)
    intro heq
    rw [heq] at hparent
    exact hparent (by decide)
  · exact ⟨slash_not_mem_replaceSlashes _, isName_replaceSlashes_iff⟩

theorem dirName_name (h : v.src = []) : dirName v = v.name := by
  rw [dirName, if_neg (not_not.mpr h)]
  split
  · rfl
  · next hname => exact (not_not.mp hname).symm

theorem ownStack_of_plain (h : slash ∉ dirName v) : ownStack v = pushPart false [] (dirName v) := by
  rw [ownStack, splitOn_eq_singleton h]
  rfl

theorem stays_iff_isName (h : slash ∉ dirName v) : Stays v ↔ IsName (dirName v) := by
  have hstack := ownStack_of_plain h
  constructor
  · rintro ⟨hne, hbelow⟩
    rw [hstack] at hne hbelow
    refine ⟨?_, ?_, ?_⟩
    · intro heq
      rw [heq] at hne
      exact hne rfl
    · intro heq
      rw [heq] at hne
      exact hne (by decide)
    intro heq
    rw [heq] at hbelow
    exact hbelow (by decide)
  intro hname
  rw [pushPart_name hname] at hstack
  refine ⟨?_, ?_⟩
  · rw [hstack]
    exact cons_ne_nil _ _
  · rw [hstack]
    exact fun hin => hname.notParent (mem_singleton.mp hin).symm

theorem stays_iff_confined : Stays v ↔ Confined v := by
  by_cases hsrc : v.src = []
  · have hstack : ownStack v = pushParts false [] (v.name.splitOn slash) := by
      rw [ownStack, dirName_name hsrc]
    constructor
    · rintro ⟨hne, hbelow⟩
      exact ⟨fun h => absurd hsrc h, fun _ => hstack ▸ ⟨hne, hbelow⟩⟩
    intro h
    obtain ⟨hne, hbelow⟩ := h.name hsrc
    exact ⟨hstack ▸ hne, hstack ▸ hbelow⟩
  obtain ⟨hslash, hname⟩ := dirName_src hsrc
  rw [stays_iff_isName hslash, hname]
  constructor
  · exact fun h => ⟨fun _ => h, fun hempty => absurd hempty hsrc⟩
  · exact fun h => h.src hsrc

theorem Confined.ownStack_eq (h : Confined v) : (ownStack v).reverse =
      ((trimRoot (cleanPath (source v))).map (directoryByte v)).splitOn slash := by
  by_cases hsrc : v.src = []
  · have hsource : source v = v.name := if_neg (not_not.mpr hsrc)
    have hbyte : directoryByte v = id := by
      funext c
      exact if_neg fun h => h.1 hsrc
    obtain ⟨hne, hbelow⟩ := h.name hsrc
    -- a root makes no difference to names that stay below
    have hstack : ∀ rooted, pushParts rooted [] (v.name.splitOn slash) = ownStack v := by
      intro rooted
      have happend := pushParts_append rooted [] hbelow
      rw [append_nil, append_nil] at happend
      rw [happend, ownStack, dirName_name hsrc]
    rw [hstack] at hne
    have hparts : ∀ part ∈ (ownStack v).reverse, slash ∉ part := by
      simpa using slash_not_mem_ownStack v
    have hnames : ∀ part ∈ (ownStack v).reverse, part ≠ [] := by
      intro part hpart
      rcases mem_pushParts (mem_reverse.mp hpart) with hin | ⟨-, hne, -⟩
      · cases hin
      · exact hne
    unfold cleanPath
    rw [hsource, hbyte, map_id, hstack, trimRoot_renderPath hparts hnames (by simpa using hne),
      splitOn_intercalate slash hparts (by simpa using hne)]
  have hsource : source v = v.src := if_pos hsrc
  have hbyte : directoryByte v = fun c => if c = slash then underscore else c := by
    funext c
    unfold directoryByte
    simp [hsrc]
  obtain ⟨hslash, hname⟩ := dirName_src hsrc
  have hdir : dirName v = replaceSlashes (trimRoot (cleanPath v.src)) := by
    have hisName := hname.mpr (h.src hsrc)
    unfold dirName at hisName ⊢
    rw [if_pos hsrc] at hisName ⊢
    split
    · next hplain =>
      rw [if_pos hplain] at hisName
      rw [cleanPath_name hisName hplain, trimRoot_of_not_mem hplain,
        replaceSlashes_of_not_mem hplain]
    · rfl
  rw [hsource, hbyte, ownStack_of_plain hslash, pushPart_name (hname.mpr (h.src hsrc))]
  change [dirName v] = (replaceSlashes (trimRoot (cleanPath v.src))).splitOn slash
  rw [← hdir, splitOn_eq_singleton hslash]

/-- The directories of two volumes are isolated exactly when the source of each of them is
confined and the two cannot be taken for each other. -/
theorem isolated_iff (v v' : VolumeConfig) :
    Isolated v v' ↔ Confined v ∧ Confined v' ∧ ¬ Confusable v v' := by
  constructor
  · intro h
    have hstays : Stays v := stays_iff_inside.mpr fun workDir owner => (h.inside workDir owner).1
    have hstays' : Stays v' := stays_iff_inside.mpr fun workDir owner => (h.inside workDir owner).2
    have hconfined := stays_iff_confined.mp hstays
    have hconfined' := stays_iff_confined.mp hstays'
    refine ⟨hconfined, hconfined', ?_⟩
    rintro ⟨hdifferent, halike⟩
    obtain ⟨owner, -⟩ := exists_owner []
    have hstack : ownStack v = ownStack v' := by
      rw [← reverse_inj, hconfined.ownStack_eq, hconfined'.ownStack_eq, halike]
    exact hdifferent (h.sources [] owner ((hstays.hostPath_inj hstays').mpr hstack))
  rintro ⟨hconfined, hconfined', hclear⟩
  have hstays := stays_iff_confined.mpr hconfined
  have hstays' := stays_iff_confined.mpr hconfined'
  refine ⟨fun workDir owner => ⟨hstays.inside workDir owner, hstays'.inside workDir owner⟩, ?_, ?_⟩
  · intro workDir owner owner' hne
    obtain ⟨hdifferent, hinside⟩ := hstays.apart hstays' workDir hne
    exact ⟨hdifferent, hinside, (hstays'.apart hstays workDir hne.symm).2⟩
  intro workDir owner heq
  have hstack := (hstays.hostPath_inj hstays').mp heq
  have hsplit := congrArg reverse hstack
  rw [hconfined.ownStack_eq, hconfined'.ownStack_eq] at hsplit
  have halike := congrArg (intercalate [slash]) hsplit
  rw [intercalate_splitOn, intercalate_splitOn] at halike
  by_contra hdifferent
  exact hclear ⟨hdifferent, halike⟩

/-- The parent directory as a source: the volume is the directory of all volumes. -/
theorem parent_source_escapes :
    hostPath (ascii "/work") (ascii "peer1") ⟨[], ascii ".."⟩ = ascii "/work/volumes" ∧
      hostPath (ascii "/work") (ascii "peer2") ⟨[], ascii ".."⟩ = ascii "/work/volumes" ∧
      hostPath (ascii "/work") (ascii "peer1") ⟨[], ascii "a/b"⟩ =
        hostPath (ascii "/work") (ascii "peer1") ⟨[], ascii "a_b"⟩ ∧
      cleanPath (ascii "a/b") ≠ cleanPath (ascii "a_b") := by
  refine ⟨?_, ?_, ?_, ?_⟩ <;> decide

end DMS.Storage
