import BeamScope.Container
import BeamScope.Proofs.Bytes

/-!
# The chunks of a file are where it says they are

A written container is read back, with any bytes behind it: the same chunks in the same order, and
under each identifier the first payload. And of any file that can be read at all, each chunk is a
stretch of the file: behind a header that gives its identifier and its length, at a multiple of
four, inside the declared size, and behind all earlier chunks.
-/

namespace BeamScope

def Chunk.stop (c : Chunk) : Nat := c.start + c.payload.length

namespace Container

open Bytes Text

def chunkSizes (f : Container) : List (String × Nat) :=
  f.chunks.map fun c => (c.idText, c.payload.length)

/-! ### Writing -/

/-- A chunk with its header, filled up to a multiple of four. -/
def writeChunk (c : Bytes × Bytes) : Bytes :=
  c.1 ++ ofNatBE 4 c.2.length ++ c.2 ++ List.replicate (padding c.2.length) 0

/-- All that the size field counts. -/
def writeBody (cs : List (Bytes × Bytes)) : Bytes := beamMark ++ cs.flatMap writeChunk

/-- A file with the given identifiers and payloads. -/
def write (cs : List (Bytes × Bytes)) : Bytes :=
  formMark ++ ofNatBE 4 (writeBody cs).length ++ writeBody cs

/-- The chunks as they stand in a file when the first header is at `pos`. -/
def placed : Nat → List (Bytes × Bytes) → List Chunk
  | _, [] => []
  | pos, (id, payload) :: cs =>
    ⟨id, pos + 8, payload⟩ :: placed (pos + 8 + payload.length + padding payload.length) cs

theorem map_placed (cs : List (Bytes × Bytes)) (pos : Nat) :
    (placed pos cs).map (fun c => (c.id, c.payload)) = cs := by
  induction cs generalizing pos with
  | nil => rfl
  | cons c cs ih => simp [placed, ih]

/-! ### Reading what was written -/

theorem padding_add {pos n : Nat} (h : pos % 4 = 0) : padding (pos + n) = padding n := by
  unfold padding
  omega

theorem aligned_padding (pos : Nat) : (pos + padding pos) % 4 = 0 := by
  unfold padding
  omega

theorem length_writeChunk_pos {c : Bytes × Bytes} (h : c.1.length = 4) :
    8 ≤ (writeChunk c).length := by
  simp only [writeChunk, List.length_append, h, length_ofNatBE]
  omega

/-- One step of a scan: a header, a payload and its padding. -/
theorem scan_writeChunk {id payload : Bytes} (hid : id.length = 4)
    (hp : payload.length < 256 ^ 4) {pos : Nat} (hpos : pos % 4 = 0) (fuel : Nat) (rest : Bytes) :
    scan (fuel + 1) ⟨pos, writeChunk (id, payload) ++ rest⟩ = (do
      let more ← scan fuel ⟨pos + 8 + payload.length + padding payload.length, rest⟩
      return ⟨id, pos + 8, payload⟩ :: more) := by
  have hw : writeChunk (id, payload) ++ rest = id ++ (ofNatBE 4 payload.length ++
      (payload ++ (List.replicate (padding payload.length) 0 ++ rest))) := by
    simp [writeChunk]
  have hheader : holds 8 (writeChunk (id, payload) ++ rest) = true := by
    have hlen := length_writeChunk_pos (c := (id, payload)) hid
    rw [holds_iff, List.length_append]
    omega
  have hskip : Cursor.skip 8 ⟨pos, writeChunk (id, payload) ++ rest⟩ =
      ⟨pos + 8, payload ++ (List.replicate (padding payload.length) 0 ++ rest)⟩ := by
    rw [hw, ← List.append_assoc]
    exact Cursor.skip_append (by simp [hid]) _ _
  have htake : (writeChunk (id, payload) ++ rest).take 4 = id := by
    rw [hw, ← hid, List.take_left]
  have hlen : toNatBE (((writeChunk (id, payload) ++ rest).drop 4).take 4) = payload.length := by
    rw [hw, ← hid, List.drop_left, hid]
    have hl : (ofNatBE 4 payload.length).length = 4 := length_ofNatBE _ _
    rw [List.take_append_of_le_length (by omega), List.take_of_length_le (by omega),
      toNatBE_ofNatBE_of_lt hp]
  have hbody : holds payload.length
      (payload ++ (List.replicate (padding payload.length) 0 ++ rest)) = true := by
    rw [holds_iff, List.length_append]
    omega
  have hpad : padding (pos + 8 + payload.length) = padding payload.length :=
    padding_add (by omega)
  simp only [scan, hheader, if_true, hskip, htake, hlen, hbody, List.take_left,
    Cursor.skip_append (rfl : payload.length = payload.length), hpad,
    Cursor.skip_append (List.length_replicate : (List.replicate _ (0 : UInt8)).length = _)]

theorem scan_writeChunks (cs : List (Bytes × Bytes)) (hid : ∀ c ∈ cs, c.1.length = 4)
    (hsize : (cs.flatMap writeChunk).length < 256 ^ 4) (fuel : Nat)
    (hfuel : cs.length ≤ fuel) (pos : Nat) (hpos : pos % 4 = 0) :
    scan fuel ⟨pos, cs.flatMap writeChunk⟩ = .ok (placed pos cs) := by
  induction cs generalizing fuel pos with
  | nil => cases fuel <;> rfl
  | cons c cs ih =>
    obtain ⟨id, payload⟩ := c
    obtain ⟨fuel, rfl⟩ : ∃ k, fuel = k + 1 := ⟨fuel - 1, by simp at hfuel; omega⟩
    have hlen : id.length = 4 := hid (id, payload) (List.mem_cons_self ..)
    rw [List.flatMap_cons, List.length_append] at hsize
    have hp : payload.length < 256 ^ 4 := by
      simp only [writeChunk, List.length_append] at hsize
      omega
    have hnext : (pos + 8 + payload.length + padding payload.length) % 4 = 0 := by
      have ha := aligned_padding payload.length
      omega
    have hrest := ih (fun c hc => hid c (List.mem_cons_of_mem _ hc)) (by omega) fuel
      (by simp at hfuel; omega) _ hnext
    rw [List.flatMap_cons, scan_writeChunk hlen hp hpos, hrest]
    rfl

theorem length_le_writeChunks (cs : List (Bytes × Bytes)) (hid : ∀ c ∈ cs, c.1.length = 4) :
    cs.length ≤ (cs.flatMap writeChunk).length := by
  induction cs with
  | nil => exact Nat.le_refl _
  | cons c cs ih =>
    have hc := length_writeChunk_pos (hid c (List.mem_cons_self ..))
    have hcs := ih fun c hc => hid c (List.mem_cons_of_mem _ hc)
    simp only [List.flatMap_cons, List.length_cons, List.length_append]
    omega

theorem parse_write (cs : List (Bytes × Bytes)) (hid : ∀ c ∈ cs, c.1.length = 4)
    (hsize : (writeBody cs).length < 2 ^ 32) (suf : Bytes) :
    (parse (write cs ++ suf)).value = .ok ⟨(write cs ++ suf).length, placed headerSize cs⟩ := by
  have hn : (ofNatBE 4 (writeBody cs).length).length = 4 := length_ofNatBE _ _
  have hbody : (writeBody cs).length = 4 + (cs.flatMap writeChunk).length := by
    rw [writeBody, List.length_append]
    rfl
  have hwrite : (write cs).length = 8 + (writeBody cs).length := by
    simp only [write, List.length_append, hn, formMark, List.length_cons, List.length_nil]
  have hsmall : ¬(write cs ++ suf).length < headerSize := by
    rw [List.length_append, headerSize]
    omega
  have hmarks : ¬((write cs ++ suf).take 4 ≠ formMark ∨
      ((write cs ++ suf).drop 8).take 4 ≠ beamMark) := by
    simp [write, writeBody, formMark, beamMark, ofNatBE]
  have hdeclared : toNatBE (((write cs ++ suf).drop 4).take 4) = (writeBody cs).length := by
    have hd : ((write cs ++ suf).drop 4).take 4 = ofNatBE 4 (writeBody cs).length := by
      simp [write, formMark, ofNatBE]
    rw [hd, toNatBE_ofNatBE_of_lt (by omega)]
  have htake : (write cs ++ suf).take (8 + (writeBody cs).length) = write cs := by
    rw [← hwrite, List.take_left]
  have hdrop : (write cs).drop headerSize = cs.flatMap writeChunk := by
    simp [write, writeBody, formMark, beamMark, ofNatBE, headerSize]
  have hscan := scan_writeChunks cs hid (by omega) (write cs ++ suf).length
    (by
      have hle := length_le_writeChunks cs hid
      rw [List.length_append]
      omega) headerSize rfl
  simp only [parse, if_neg hsmall, if_neg hmarks, hdeclared, htake, Cursor.ofOffset, hdrop, hscan]
  rfl

theorem chunkSizes_placed (size pos : Nat) (cs : List (Bytes × Bytes)) :
    chunkSizes ⟨size, placed pos cs⟩ = cs.map fun c => (Utf8.decodeLossy c.1, c.2.length) := by
  conv => rhs; rw [← map_placed cs pos]
  rw [List.map_map]
  rfl

theorem chunk?_placed (size pos : Nat) (cs : List (Bytes × Bytes)) (id : String) :
    chunk? ⟨size, placed pos cs⟩ id =
      (cs.find? fun c => c.1 == Utf8.encode id).map Prod.snd := by
  conv => rhs; rw [← map_placed cs pos]
  rw [List.find?_map, Option.map_map]
  rfl

/-! ### Reading any file -/

/-- A chunk is a stretch of `data` behind its header. -/
structure Stands (data : Bytes) (c : Chunk) : Prop where
  aligned : c.start % 4 = 0
  header : headerSize + 8 ≤ c.start
  id : c.id = (data.drop (c.start - 8)).take 4
  size : c.payload.length = toNatBE ((data.drop (c.start - 4)).take 4)
  payload : c.payload = (data.drop c.start).take c.payload.length

/-- Where the header says that the file ends. -/
def declaredEnd (data : Bytes) : Nat := 8 + toNatBE ((data.drop 4).take 4)

/-- The chunks of a file stand in it, one behind the other and inside the declared size, and each
identifier gives the whole payload of one of them. -/
structure Layout (data : Bytes) (f : Container) : Prop where
  stands : ∀ c ∈ f.chunks, Stands data c
  inside : ∀ c ∈ f.chunks, c.stop ≤ min (declaredEnd data) data.length
  ordered : f.chunks.Pairwise fun a b => a.start < b.start ∧ a.stop ≤ b.start
  listed : ∀ c ∈ f.chunks, ∀ id, Utf8.encode id = c.id → (f.chunk? id).isSome
  whole : ∀ id payload, f.chunk? id = some payload →
    ∃ c ∈ f.chunks, c.id = Utf8.encode id ∧ c.payload = payload

/-- What one step of a scan finds, and where the next one starts. -/
theorem scan_succ_eq_ok {data : Bytes} {pos fuel : Nat} {chunks : List Chunk}
    (h : scan (fuel + 1) (Cursor.ofOffset data pos) = .ok chunks) :
    chunks = [] ∨ ∃ c more, chunks = c :: more ∧ c.start = pos + 8 ∧
      c.id = (data.drop pos).take 4 ∧
      c.payload.length = toNatBE ((data.drop (pos + 4)).take 4) ∧
      c.payload = (data.drop (pos + 8)).take c.payload.length ∧ c.stop ≤ data.length ∧
      scan fuel (Cursor.ofOffset data (c.stop + padding c.stop)) = .ok more := by
  simp only [scan] at h
  split at h
  · rename_i hheader
    rw [holds_iff] at hheader
    simp only [Cursor.ofOffset, Cursor.skip, List.drop_drop, List.length_drop] at h hheader
    split at h
    · rename_i hbody
      rw [holds_iff, List.length_drop] at hbody
      -- The payload has the declared length, since that many bytes are left.
      have hlen : ((data.drop (pos + 8)).take (toNatBE ((data.drop (pos + 4)).take 4))).length =
          toNatBE ((data.drop (pos + 4)).take 4) := by
        rw [List.length_take, List.length_drop]
        omega
      obtain ⟨more, hmore, h⟩ := bind_eq_ok h
      cases h
      refine Or.inr ⟨_, more, rfl, rfl, rfl, hlen, by rw [hlen], ?_, ?_⟩
      · simp only [Chunk.stop, hlen]
        omega
      · simp only [Chunk.stop, hlen]
        exact hmore
    · cases h
  · cases h
    exact Or.inl rfl

theorem stands_of_scan {data : Bytes} {fuel pos : Nat} {chunks : List Chunk}
    (haligned : pos % 4 = 0) (hheader : headerSize ≤ pos)
    (h : scan fuel (Cursor.ofOffset data pos) = .ok chunks) :
    (∀ c ∈ chunks, Stands data c ∧ pos + 8 ≤ c.start ∧ c.stop ≤ data.length) ∧
      chunks.Pairwise fun a b => a.stop + 8 ≤ b.start := by
  induction fuel generalizing pos chunks with
  | zero =>
    cases h
    simp
  | succ fuel ih =>
    rcases scan_succ_eq_ok h with hnil | ⟨c, more, hc, hstart, hid, hsize, hpayload, hstop, hmore⟩
    · simp [hnil]
    · have hnext := aligned_padding c.stop
      have hbehind : pos + 8 ≤ c.stop := by
        rw [Chunk.stop, hstart]
        omega
      obtain ⟨hall, hpairs⟩ := ih hnext (by omega) hmore
      have hc8 : c.start - 8 = pos := by omega
      have hc4 : c.start - 4 = pos + 4 := by omega
      rw [hc]
      refine ⟨?_, ?_⟩
      · intro d hd
        cases List.mem_cons.mp hd with
        | inl he =>
          subst he
          refine ⟨⟨by omega, by omega, by rw [hc8, hid], by rw [hc4, hsize], ?_⟩, by omega, hstop⟩
          rw [hstart]
          exact hpayload
        | inr hm =>
          obtain ⟨hs, hlo, hhi⟩ := hall d hm
          exact ⟨hs, by omega, hhi⟩
      · refine List.pairwise_cons.mpr ⟨?_, hpairs⟩
        intro d hd
        have hlo := (hall d hd).2.1
        omega

/-- A stretch of the front of a byte string is one of the whole. -/
theorem take_drop_take {data : Bytes} {start n limit : Nat} (h : start + n ≤ limit) :
    ((data.take limit).drop start).take n = (data.drop start).take n := by
  rw [List.drop_take, List.take_take, Nat.min_eq_left (by omega)]

theorem Stands.of_take {data : Bytes} {limit : Nat} {c : Chunk} (h : Stands (data.take limit) c)
    (hstop : c.stop ≤ limit) : Stands data c := by
  have hheader := h.header
  rw [Chunk.stop] at hstop
  refine ⟨h.aligned, hheader, ?_, ?_, ?_⟩
  · rw [h.id, take_drop_take (by omega)]
  · rw [h.size, take_drop_take (by omega)]
  · rw [← take_drop_take hstop]
    exact h.payload

theorem parse_eq_ok {data : Bytes} {f : Container} (h : (parse data).value = .ok f) :
    scan data.length (Cursor.ofOffset (data.take (declaredEnd data)) headerSize) =
      .ok f.chunks := by
  simp only [parse] at h
  split at h
  · cases h
  · split at h
    · cases h
    · change (scan data.length (Cursor.ofOffset (data.take (declaredEnd data)) headerSize)).map _ =
        .ok f at h
      cases hs : scan data.length (Cursor.ofOffset (data.take (declaredEnd data)) headerSize) with
      | error e =>
        rw [hs] at h
        cases h
      | ok chunks =>
        rw [hs] at h
        cases h
        rfl

theorem layout_of_parse {data : Bytes} {f : Container} (h : (parse data).value = .ok f) :
    Layout data f := by
  obtain ⟨hall, hpairs⟩ := stands_of_scan rfl (Nat.le_refl _) (parse_eq_ok h)
  have hinside : ∀ c ∈ f.chunks, c.stop ≤ min (declaredEnd data) data.length := by
    intro c hc
    have hstop := (hall c hc).2.2
    rwa [List.length_take] at hstop
  refine ⟨?_, hinside, ?_, ?_, ?_⟩
  · intro c hc
    have hlimit := hinside c hc
    exact (hall c hc).1.of_take (by omega)
  · refine hpairs.imp ?_
    intro a b hab
    have hstart : a.start ≤ a.stop := Nat.le_add_right _ _
    omega
  · intro c hc id hid
    have hfind : (f.chunks.find? fun c => c.id == Utf8.encode id).isSome = true := by
      rw [List.find?_isSome]
      exact ⟨c, hc, by simp [hid]⟩
    simpa [chunk?] using hfind
  · intro id payload hp
    obtain ⟨c, hfind, hc⟩ := Option.map_eq_some_iff.mp hp
    exact ⟨c, List.mem_of_find?_eq_some hfind, by simpa using List.find?_some hfind, hc⟩

/-- Containers are read back, and the chunks of any container are where it says. A file with any
chunks, and any bytes behind it, gives the same chunks in order and the first payload under each
identifier. In every file that is read, each chunk is a stretch of the file, aligned, inside the
declared size, as long as its header says and behind all earlier ones; none is cut short, and none
that is listed is missed. -/
theorem parse_write_and_layout :
    (∀ (cs : List (Bytes × Bytes)) (suf : Bytes), (∀ c ∈ cs, c.1.length = 4) →
      (writeBody cs).length < 2 ^ 32 →
      ∃ f, (parse (write cs ++ suf)).value = .ok f ∧
        f.chunkSizes = cs.map (fun c => (Utf8.decodeLossy c.1, c.2.length)) ∧
        ∀ id : String, f.chunk? id = (cs.find? fun c => c.1 == Utf8.encode id).map Prod.snd) ∧
    (∀ (data : Bytes) (f : Container), (parse data).value = .ok f → Layout data f) := by
  constructor
  · intro cs suf hid hsize
    exact ⟨_, parse_write cs hid hsize suf, chunkSizes_placed _ _ _, chunk?_placed _ _ _⟩
  · intro data f h
    exact layout_of_parse h

-- Two chunks under one identifier, the first of a length that needs padding, and one whose identifier
-- is no text; the bytes behind the container would be a chunk header if it did not end there.
theorem parse_write_and_layout_repeated :
    let cs : List (Bytes × Bytes) :=
      [([67, 111, 100, 101], [1, 2, 3, 4, 5]), ([0xff, 0, 0, 0], []), ([67, 111, 100, 101], [9])]
    let suf : Bytes := [76, 105, 110, 101, 0, 0, 0, 9]
    ∃ f, (parse (write cs ++ suf)).value = .ok f ∧ Layout (write cs ++ suf) f ∧
      f.chunkSizes.map Prod.snd = [5, 0, 1] ∧ f.chunk? "Code" = some [1, 2, 3, 4, 5] ∧
      f.chunk? "Line" = none := by
  intro cs suf
  obtain ⟨f, hparse, hsizes, hchunk⟩ := parse_write_and_layout.1 cs suf
    (by decide +kernel +zetaReduce) (by decide +kernel +zetaReduce)
  refine ⟨f, hparse, parse_write_and_layout.2 _ f hparse, ?_, ?_, ?_⟩
  · rw [hsizes]
    decide +kernel +zetaReduce
  · rw [hchunk]
    decide +kernel +zetaReduce
  · rw [hchunk]
    decide +kernel +zetaReduce

end Container

end BeamScope
