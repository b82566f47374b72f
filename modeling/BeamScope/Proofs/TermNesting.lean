import BeamScope.Proofs.Positional.Term

/-!
# How many terms are open at once

Lists, tuples and maps nest up to a limit, and with them the calls that read their children. The
parts of an external function are read on the level of the function itself, without a look at the
limit: an external function whose module is an external function, and so on, opens as many calls as
it has marks. So no number of calls is enough for all terms. Enough for a given one are as many as
there are levels, and one more for each byte that can be such a mark.
-/

namespace BeamScope

namespace Term

/-- A fault behind a row of marks is found only if each mark can be opened. -/
theorem read_marks {d : Decoder} {fuel levels : Nat} {rest : Bytes} {e : Fault} (n pos : Nat)
    (h : read d fuel levels ⟨pos + n, rest⟩ = .error e) :
    read d (n + fuel) levels ⟨pos, List.replicate n Positional.exportMark ++ rest⟩ = .error e := by
  induction n generalizing pos with
  | zero => simpa using h
  | succ n ih =>
    have hinner := ih (pos + 1) (by rwa [show pos + 1 + n = pos + (n + 1) by omega])
    rw [List.replicate_succ, List.cons_append, show n + 1 + fuel = n + fuel + 1 by omega]
    change (read d (n + fuel) levels
      ⟨pos + 1, List.replicate n Positional.exportMark ++ rest⟩ >>= _) = _
    rw [hinner]
    rfl

/-- No fuel is enough for the terms of all byte strings: behind as many marks as there is fuel stands
a byte that is never looked at. -/
theorem no_fuel_for_all_terms :
    ¬∃ fuel, ∀ data : Bytes,
      read .standard fuel Decoder.standard.maxDepth (Cursor.ofOffset data 0) =
        read .standard data.length Decoder.standard.maxDepth (Cursor.ofOffset data 0) := by
  rintro ⟨fuel, h⟩
  have hdata := h (List.replicate fuel Positional.exportMark ++ [255])
  have hout : read .standard (fuel + 0) Decoder.standard.maxDepth
      ⟨0, List.replicate fuel Positional.exportMark ++ [255]⟩ = .error (.truncated (0 + fuel)) :=
    read_marks fuel 0 rfl
  have hseen : read .standard (fuel + 1) Decoder.standard.maxDepth
      ⟨0, List.replicate fuel Positional.exportMark ++ [255]⟩ = .error (.badTerm 255 (0 + fuel)) :=
    read_marks fuel 0 rfl
  rw [List.length_append, List.length_replicate, List.length_singleton, Cursor.ofOffset,
    List.drop_zero, hseen] at hdata
  rw [Nat.add_zero, hdata] at hout
  cases hout

end Term

namespace Positional

open Bytes

/-- A row of marks opens a call for each. -/
theorem term_exhausted (pre rest : Bytes) (depth frames : Nat)
    (hlen : (pre ++ List.replicate frames exportMark ++ rest).length < 2 ^ 63) :
    term (pre ++ List.replicate frames exportMark ++ rest) frames depth pre.length =
      .error .exhausted := by
  induction frames generalizing pre with
  | zero => rfl
  | succ frames ih =>
    have hrow : pre ++ List.replicate (frames + 1) exportMark ++ rest =
        pre ++ [exportMark] ++ List.replicate frames exportMark ++ rest := by
      simp [List.replicate_succ]
    rw [hrow] at hlen ⊢
    have hinner := ih (pre ++ [exportMark]) hlen
    rw [List.length_append, List.length_singleton] at hinner
    have hbyte : byte (pre ++ [exportMark] ++ List.replicate frames exportMark ++ rest) pre.length =
        .ok (exportMark, pre.length + 1) := by
      have hget : (pre ++ [exportMark] ++ List.replicate frames exportMark ++ rest)[pre.length]? =
          some exportMark := by simp
      have hroom : pre.length + 1 < 2 ^ 64 := by
        simp only [List.length_append, List.length_singleton] at hlen
        omega
      rw [byte_eq_byteAt hlen (by simp), byteAt, hget, orFail_some, checked_ok_bind,
        add_eq_ok hroom]
      rfl
    rw [term, termBody, hbyte, checked_ok_bind]
    change (term _ frames depth (pre.length + 1) >>= _) = _
    rw [hinner]
    rfl

/-- The calls that are open at once follow the marks of external functions and not only the nesting
limit. Any number of calls is used up by as many marks in a row; and as many calls as there are
levels, with one more for each mark in the bytes, are never used up. -/
theorem open_calls_follow_marks (unzip : Bytes → Option Bytes) :
    (∀ frames, frames + 1 < 2 ^ 63 →
      decodeWithin unzip frames (Term.version :: List.replicate frames exportMark) =
        .error .exhausted) ∧
    ∀ data frames, data.length < 2 ^ 63 →
      maxDepth + 1 + (termBytes unzip data).count exportMark ≤ frames →
        decodeWithin unzip frames data = returned (Term.decode (decoder unzip) data) := by
  refine ⟨?_, fun data frames hlen hframes => decodeWithin_eq unzip hlen hframes⟩
  intro frames hframes
  have hterm : finish (Term.version :: List.replicate frames exportMark) frames 1 =
      .error .exhausted := by
    have h := term_exhausted [Term.version] [] 0 frames (by simpa using hframes)
    rw [List.append_nil, List.singleton_append] at h
    rw [finish]
    change (term _ frames 0 [Term.version].length >>= _) = _
    rw [h]
    rfl
  cases frames with
  | zero => exact hterm
  | succ frames => exact hterm

-- Three marks use up three calls; with a call for each level besides, the reader sees where the
-- bytes end.
theorem open_calls_follow_marks_three :
    decodeWithin Zlib.decompress? 3 [131, 113, 113, 113] = .error .exhausted ∧
      decodeWithin Zlib.decompress? 516 [131, 113, 113, 113] = fail (.truncated 4) := by
  obtain ⟨hout, henough⟩ := open_calls_follow_marks Zlib.decompress?
  exact ⟨hout 3 (by decide), (henough [131, 113, 113, 113] 516 (by decide) (by decide)).trans rfl⟩

end Positional

end BeamScope
