import DMS.Core.GoValue

/-! # Chunked transfer of a log

`handleAllocationLogsChunk` and `readLogChunk` of `dms/node/behaviors_allocation.go` serve a log
file chunk by chunk to `drainLogStreamToFile`, which asks until a reply was the last. The file may
grow at any time, also between the look at its size and the read.
-/

namespace DMS.Orchestrator.Logs

open List

/-- `ChunkedTransferRequest` -/
structure ChunkRequest where
  ack : Int
  offset : Int
  maxBytes : Int

/-- `ChunkedTransferResponse` -/
structure ChunkResponse where
  offset : Int
  nextOffset : Nat
  totalSize : Nat
  eof : Bool
  data : GoString

def defaultLogChunkSize : Int := 512 * 1024

def capChunkSize (size maxSize : Int) : Int :=
  if size ≤ 0 then maxSize
  else if size > maxSize then maxSize
  else size

/-- What is known once the size of the file was looked up: the reply, or the size. -/
inductive Looked
  | replied (resp : ChunkResponse)
  | reading (totalSize : Nat)

/-- The handler up to `Stat`; a file that does not exist is at its end. -/
def lookUp (file : Option GoString) (req : ChunkRequest) : Except String Looked :=
  if req.offset < 0 ∨ req.ack < 0 then .error "invalid offset or ack"
  else if req.ack > req.offset then .error s!"ack {req.ack} exceeds offset {req.offset}"
  else
    match file with
    | none => .ok (.replied ⟨req.offset, req.offset.toNat, 0, true, []⟩)
    | some content =>
      let totalSize := content.length
      if req.offset > totalSize then
        .error s!"failed to read log chunk: offset {req.offset} beyond file size {totalSize}"
      else if req.offset = totalSize then
        .ok (.replied ⟨req.offset, totalSize, totalSize, true, []⟩)
      else .ok (.reading totalSize)

/-- The rest of `readLogChunk`: `Read` takes `n` bytes, at least one and at most what the
buffer has room for. -/
def readChunk (content : GoString) (req : ChunkRequest) (totalSize n : Nat) : ChunkResponse :=
  let offset := req.offset.toNat
  let maxBytes := (capChunkSize req.maxBytes defaultLogChunkSize).toNat
  let toRead := if totalSize - offset < maxBytes then totalSize - offset else maxBytes
  let data := (content.drop offset).take (max 1 (min n toRead))
  let nextOffset := offset + data.length
  ⟨req.offset, nextOffset, totalSize, decide (totalSize ≤ nextOffset), data⟩

/-- One stream of one allocation: its file, what the client has, and the request that is
being served. -/
structure Transfer where
  file : Option GoString
  ack : Nat
  offset : Nat
  collected : GoString
  reading : Option Nat
  ended : Bool
  refused : Bool

namespace Transfer

def start (file : Option GoString) : Transfer := ⟨file, 0, 0, [], none, false, false⟩

def content (t : Transfer) : GoString := t.file.getD []

def request (maxBytes : Int) (t : Transfer) : ChunkRequest := ⟨t.ack, t.offset, maxBytes⟩

def receive (resp : ChunkResponse) (t : Transfer) : Transfer := { t with
    collected := t.collected ++ resp.data
    ack := resp.nextOffset
    offset := resp.nextOffset
    reading := none
    ended := resp.eof }

inductive Step
  | append (bytes : GoString)
  | request
  | read (n : Nat)
  | again

/-- `again` is the next pass of a fetch that follows the log; it goes on at the offset that
the last one has returned. -/
def step (maxBytes : Int) (t : Transfer) : Step → Transfer
  | .append bytes => { t with file := some (t.content ++ bytes) }
  | .request =>
    if t.ended = true ∨ t.refused = true ∨ t.reading.isSome then t
    else
      match lookUp t.file (t.request maxBytes) with
      | .error _ => { t with refused := true }
      | .ok (.replied resp) => t.receive resp
      | .ok (.reading totalSize) => { t with reading := some totalSize }
  | .read n =>
    match t.reading with
    | none => t
    | some totalSize => t.receive (readChunk t.content (t.request maxBytes) totalSize n)
  | .again => if t.ended then { t with ended := false, ack := t.offset } else t

def run (maxBytes : Int) (t : Transfer) (steps : List Step) : Transfer :=
  steps.foldl (step maxBytes) t

/-- Requests one after the other, with the numbers of bytes that they read. -/
def requests (sizes : List Nat) : List Step := sizes.flatMap fun n => [.request, .read n]

/-- What the client has is the beginning of the file, and its requests are answered. -/
structure Exact (t : Transfer) : Prop where
  collected : t.collected = t.content.take t.offset
  within : t.offset ≤ t.content.length
  answered : t.refused = false

structure Sound (t : Transfer) : Prop extends Exact t where
  acked : t.ack ≤ t.offset
  reading : ∀ totalSize, t.reading = some totalSize →
    t.offset < totalSize ∧ totalSize ≤ t.content.length

variable {maxBytes : Int} {t : Transfer}

theorem lookUp_eq (h : t.Sound) :
    lookUp t.file (t.request maxBytes) = if t.offset = t.content.length then
        .ok (.replied ⟨t.offset, t.offset, t.content.length, true, []⟩)
      else .ok (.reading t.content.length) := by
  have hwithin := h.within
  have hacked := h.acked
  unfold lookUp request
  dsimp only
  rw [if_neg (by omega), if_neg (by omega)]
  unfold content at hwithin ⊢
  cases hfile : t.file with
  | none =>
    rw [hfile] at hwithin
    have hzero : t.offset = 0 := Nat.le_zero.mp hwithin
    simp [hzero]
  | some bytes =>
    rw [hfile] at hwithin
    have hle : t.offset ≤ bytes.length := hwithin
    dsimp only [Option.getD_some]
    rw [if_neg (by omega)]
    by_cases heq : t.offset = bytes.length
    · rw [if_pos (by omega), if_pos heq, heq]
    · rw [if_neg (by omega), if_neg heq]

theorem capChunkSize_pos (hmax : 0 < maxBytes) : 0 < capChunkSize maxBytes defaultLogChunkSize := by
  rw [capChunkSize, if_neg (by omega)]
  split
  · decide
  · exact hmax

variable {size : Nat}

theorem readChunk_eq (h : t.Sound) (hmax : 0 < maxBytes)
    (hreading : t.reading = some size) (n : Nat) :
    ∃ k, 0 < k ∧ t.offset + k ≤ size ∧ readChunk t.content (t.request maxBytes) size n =
        ⟨t.offset, t.offset + k, size, decide (size ≤ t.offset + k),
          (t.content.drop t.offset).take k⟩ := by
  obtain ⟨hlt, hle⟩ := h.reading size hreading
  have hcap := capChunkSize_pos hmax
  unfold readChunk request
  dsimp only
  rw [Int.toNat_natCast]
  generalize hread : (if size - t.offset <
      (capChunkSize maxBytes defaultLogChunkSize).toNat then size - t.offset
    else (capChunkSize maxBytes defaultLogChunkSize).toNat) = toRead
  have hroom : 0 < toRead ∧ toRead ≤ size - t.offset := by
    rw [← hread]
    split <;> omega
  refine ⟨max 1 (min n toRead), by omega, by omega, ?_⟩
  have hlen : ((t.content.drop t.offset).take (max 1 (min n toRead))).length =
      max 1 (min n toRead) := by
    rw [length_take, length_drop]
    omega
  rw [hlen]

def atEnd (t : Transfer) : ChunkResponse := ⟨t.offset, t.offset, t.content.length, true, []⟩

theorem step_request (h : t.Sound) (hended : t.ended = false) (hreading : t.reading = none) :
    t.step maxBytes .request = if t.offset = t.content.length then t.receive t.atEnd
      else { t with reading := some t.content.length } := by
  rw [step, if_neg (by simp [hended, h.answered, hreading]), lookUp_eq h]
  by_cases heq : t.offset = t.content.length
  · rw [if_pos heq, if_pos heq]
    rfl
  · rw [if_neg heq, if_neg heq]

theorem step_read (hreading : t.reading = some size) (n : Nat) : t.step maxBytes (.read n) =
      t.receive (readChunk t.content (t.request maxBytes) size n) := by
  rw [step, hreading]

theorem Sound.receive (h : t.Sound) {k} (hk : t.offset + k ≤ t.content.length)
    {resp : ChunkResponse} (hnext : resp.nextOffset = t.offset + k)
    (hdata : resp.data = (t.content.drop t.offset).take k) : (t.receive resp).Sound := by
  refine ⟨⟨?_, ?_, h.answered⟩, Nat.le_refl resp.nextOffset, nofun⟩
  · change t.collected ++ resp.data = t.content.take resp.nextOffset
    rw [hnext, hdata, h.collected, take_add]
  change resp.nextOffset ≤ t.content.length
  rw [hnext]
  exact hk

theorem Sound.append (h : t.Sound) (bytes : GoString) :
    { t with file := some (t.content ++ bytes) }.Sound := by
  have hlen : t.content.length ≤ (t.content ++ bytes).length := by simp
  refine ⟨⟨?_, Nat.le_trans h.within hlen, h.answered⟩, h.acked, ?_⟩
  · change t.collected = (t.content ++ bytes).take t.offset
    rw [take_append_of_le_length h.within]
    exact h.collected
  intro size hreading
  obtain ⟨hlt, hle⟩ := h.reading size hreading
  exact ⟨hlt, Nat.le_trans hle hlen⟩

theorem Sound.request (h : t.Sound) (hended : t.ended = false) (hreading : t.reading = none) :
    (t.step maxBytes .request).Sound := by
  rw [step_request h hended hreading]
  split
  · exact h.receive h.within rfl take_zero.symm
  rename_i hne
  refine ⟨⟨h.collected, h.within, h.answered⟩, h.acked, ?_⟩
  rintro size ⟨⟩
  exact ⟨Nat.lt_of_le_of_ne h.within hne, Nat.le_refl _⟩

theorem Sound.step (h : t.Sound) (hmax : 0 < maxBytes) (s : Step) : (t.step maxBytes s).Sound := by
  cases s with
  | append bytes => exact h.append bytes
  | request =>
    by_cases hidle : t.ended = false ∧ t.reading = none
    · exact h.request hidle.1 hidle.2
    have hwait : t.step maxBytes .request = t := by
      refine if_pos ?_
      by_contra hnone
      simp only [not_or, Bool.not_eq_true] at hnone
      exact hidle ⟨hnone.1, by simpa using hnone.2.2⟩
    rwa [hwait]
  | read n =>
    cases hreading : t.reading with
    | none =>
      have hidle : t.step maxBytes (.read n) = t := by
        rw [Transfer.step, hreading]
      rwa [hidle]
    | some size =>
      obtain ⟨k, -, hk, heq⟩ := readChunk_eq h hmax hreading n
      rw [step_read hreading, heq]
      exact h.receive (Nat.le_trans hk (h.reading size hreading).2) rfl rfl
  | again =>
    unfold Transfer.step
    dsimp only
    split
    · exact ⟨⟨h.collected, h.within, h.answered⟩, Nat.le_refl _, h.reading⟩
    · exact h

theorem Sound.run (h : t.Sound) (hmax : 0 < maxBytes) (steps : List Step) :
    (t.run maxBytes steps).Sound := by
  induction steps generalizing t with
  | nil => exact h
  | cons s steps ih => exact ih (h.step hmax s)

theorem start_sound (file : Option GoString) : (start file).Sound :=
  ⟨⟨rfl, Nat.zero_le _, rfl⟩, Nat.le_refl 0, nofun⟩

def round (maxBytes : Int) (t : Transfer) (n : Nat) : Transfer := t.run maxBytes [.request, .read n]

theorem run_requests (sizes : List Nat) :
    t.run maxBytes (requests sizes) = sizes.foldl (round maxBytes) t := by
  induction sizes generalizing t with
  | nil => rfl
  | cons n sizes ih => exact ih

theorem read_spec (h : t.Sound) (hmax : 0 < maxBytes) (hreading : t.reading = some size) (n : Nat) :
    ∃ u, t.step maxBytes (.read n) = u ∧ u.reading = none ∧ u.file = t.file ∧
      t.offset < u.offset ∧ (u.ended = true → u.offset = size) := by
  obtain ⟨k, hpos, hk, heq⟩ := readChunk_eq h hmax hreading n
  refine ⟨_, step_read hreading n, rfl, rfl, ?_, ?_⟩
  · rw [heq]
    exact Nat.lt_add_of_pos_right hpos
  · rw [heq]
    exact fun hend => Nat.le_antisymm hk (of_decide_eq_true hend)

theorem round_spec (h : t.Sound) (hmax : 0 < maxBytes) (hended : t.ended = false) (n : Nat) :
    ∃ u, t.round maxBytes n = u ∧ u.reading = none ∧ u.file = t.file ∧
      (u.ended = false → t.offset < u.offset) ∧
      (u.ended = true → u.offset = t.reading.getD t.content.length) := by
  cases hreading : t.reading with
  | some size =>
    have hwait : t.step maxBytes .request = t := if_pos (by simp [hreading])
    obtain ⟨u, hu, hidle, hfile, hfurther, hend⟩ := read_spec h hmax hreading n
    refine ⟨u, ?_, hidle, hfile, fun _ => hfurther, hend⟩
    change (t.step maxBytes .request).step maxBytes (.read n) = u
    rw [hwait, hu]
  | none =>
    have hrequest : t.step maxBytes .request = _ := step_request h hended hreading
    by_cases heq : t.offset = t.content.length
    · rw [if_pos heq] at hrequest
      refine ⟨t.receive t.atEnd, ?_, rfl, rfl, nofun, fun _ => heq⟩
      change (t.step maxBytes .request).step maxBytes (.read n) = _
      rw [hrequest]
      rfl
    rw [if_neg heq] at hrequest
    have hsound : (t.step maxBytes .request).Sound := h.request hended hreading
    rw [hrequest] at hsound
    obtain ⟨u, hu, hidle, hfile, hfurther, hend⟩ := read_spec hsound hmax rfl n
    refine ⟨u, ?_, hidle, hfile, fun _ => hfurther, hend⟩
    change (t.step maxBytes .request).step maxBytes (.read n) = u
    rw [hrequest, hu]

theorem foldl_round_of_ended (hended : t.ended = true) (hreading : t.reading = none)
    (sizes : List Nat) : sizes.foldl (round maxBytes) t = t := by
  induction sizes with
  | nil => rfl
  | cons n sizes ih =>
    have hround : t.round maxBytes n = t := by
      have hrequest : t.step maxBytes .request = t := if_pos (.inl hended)
      change (t.step maxBytes .request).step maxBytes (.read n) = t
      rw [hrequest]
      rw [Transfer.step, hreading]
    rw [foldl_cons, hround]
    exact ih

theorem rounds_end (hmax : 0 < maxBytes) (sizes : List Nat) :
    ∀ {t : Transfer}, t.Sound → t.ended = false → t.content.length < t.offset + sizes.length →
      ∃ u, sizes.foldl (round maxBytes) t = u ∧ u.ended = true ∧ u.file = t.file ∧
        (u.offset = t.content.length ∨ t.reading = some u.offset) := by
  induction sizes with
  | nil =>
    intro t h _ hlong
    have hwithin := h.within
    simp at hlong
    omega
  | cons n sizes ih =>
    intro t h hended hlong
    obtain ⟨u, hu, hidle, hfile, hfurther, hend⟩ := round_spec h hmax hended n
    have hsound : u.Sound := hu ▸ h.run hmax [.request, .read n]
    have hcontent : u.content = t.content := by rw [content, hfile, content]
    rw [foldl_cons, hu]
    cases hdone : u.ended with
    | true =>
      refine ⟨u, foldl_round_of_ended hdone hidle sizes, hdone, hfile, ?_⟩
      have hoffset := hend hdone
      cases hreading : t.reading with
      | none =>
        rw [hreading] at hoffset
        exact .inl hoffset
      | some size =>
        rw [hreading] at hoffset
        exact .inr (congrArg some hoffset.symm)
    | false =>
      have hless := hfurther hdone
      rw [length_cons] at hlong
      obtain ⟨v, hv, hvended, hvfile, hwhole⟩ := ih hsound hdone (by rw [hcontent]; omega)
      refine ⟨v, hv, hvended, hvfile.trans hfile, .inl ?_⟩
      rw [hidle, hcontent] at hwhole
      exact hwhole.resolve_right nofun

/-- In every run the client has the beginning of the file up to its offset and is not refused; and
if the file does not grow any more, the transfer ends after finitely many requests, with the whole
file unless the last had looked up its size before. -/
theorem run_exact (maxBytes : Int) (hmax : 0 < maxBytes) (file : Option GoString)
    (steps : List Step) :
    ((start file).run maxBytes steps).Exact ∧ (((start file).run maxBytes steps).ended = false →
        ∃ N, ∀ sizes, N ≤ sizes.length →
          ∃ u, ((start file).run maxBytes steps).run maxBytes (requests sizes) = u ∧
            u.Exact ∧ u.ended = true ∧ u.file = ((start file).run maxBytes steps).file ∧
            (u.collected = u.content ∨
              ((start file).run maxBytes steps).reading = some u.offset)) := by
  have h := (start_sound file).run hmax steps
  refine ⟨h.toExact, fun hended => ?_⟩
  refine ⟨((start file).run maxBytes steps).content.length + 1, fun sizes hlong => ?_⟩
  obtain ⟨u, hu, hdone, hfile, hwhole⟩ := rounds_end hmax sizes h hended (by omega)
  have hsound := h.run hmax (requests sizes)
  rw [run_requests, hu] at hsound
  refine ⟨u, (run_requests sizes).trans hu, hsound.toExact, hdone, hfile, hwhole.imp_left ?_⟩
  intro hoffset
  have hcontent : u.content = ((start file).run maxBytes steps).content := by
    rw [content, hfile, content]
  rw [hsound.collected, hoffset, ← hcontent, take_length]

theorem run_exact_two_chunks : ((start (some (ascii "ab"))).run 1 [.request, .read 1]).Exact := by
  exact (run_exact 1 (by decide) (some (ascii "ab")) [.request, .read 1]).1

/-- The file grows between the look at its size and the last read, and not any more. -/
theorem ends_without_tail : ((start (some (ascii "ab"))).run 2
        [.request, .append (ascii "c"), .read 2, .request, .read 2]).ended = true ∧
      ((start (some (ascii "ab"))).run 2
        [.request, .append (ascii "c"), .read 2, .request, .read 2]).collected = ascii "ab" := by
  decide

end Transfer

end DMS.Orchestrator.Logs
