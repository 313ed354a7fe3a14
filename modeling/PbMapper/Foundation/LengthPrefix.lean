import PbMapper.Foundation.BigEndian
import Mathlib.Data.List.Basic

/-!
# Length-prefixed frames

A file of byte strings, each behind its length.  The strings and where each of
them ends are determined by the bytes, so of the beginnings of such a file only
those that end with a frame are files themselves.
-/

namespace LengthPrefix

open BigEndian

variable {width : ℕ}

/-- A body behind its length. -/
def frame (width : ℕ) (body : List UInt8) : List UInt8 :=
  toBeBytes width body.length ++ body

def frames (width : ℕ) (bodies : List (List UInt8)) : List UInt8 :=
  bodies.flatMap (frame width)

@[simp]
theorem frames_nil : frames width [] = [] := rfl

@[simp]
theorem frames_cons (body : List UInt8) (bodies : List (List UInt8)) :
    frames width (body :: bodies) = frame width body ++ frames width bodies := rfl

@[simp]
theorem frames_append (first second : List (List UInt8)) :
    frames width (first ++ second) = frames width first ++ frames width second :=
  List.flatMap_append

/-- The length of the body is what the frame begins with. -/
theorem fromBeBytes_take_frame {body : List UInt8}
    (hbody : body.length < 256 ^ width) (tail : List UInt8) :
    fromBeBytes ((frame width body ++ tail).take width) = body.length := by
  rw [frame, List.append_assoc, List.take_left' (length_toBeBytes width _),
    fromBeBytes_toBeBytes hbody]

/-- Bytes that begin with a frame do so in one way. -/
theorem frame_append_inj {body other tail rest : List UInt8}
    (hbody : body.length < 256 ^ width) (hother : other.length < 256 ^ width)
    (heq : frame width body ++ tail = frame width other ++ rest) :
    body = other ∧ tail = rest := by
  have hlength : body.length = other.length := by
    calc
      body.length = fromBeBytes ((frame width body ++ tail).take width) :=
        (fromBeBytes_take_frame hbody tail).symm
      _ = fromBeBytes ((frame width other ++ rest).take width) := by rw [heq]
      _ = other.length := fromBeBytes_take_frame hother rest
  rw [frame, frame, List.append_assoc, List.append_assoc, hlength] at heq
  exact List.append_inj (List.append_cancel_left heq) hlength

/-- A file that begins with other frames begins with their bodies. -/
theorem append_of_frames_eq {bodies others : List (List UInt8)}
    {tail : List UInt8} (hbodies : ∀ body ∈ bodies, body.length < 256 ^ width)
    (hothers : ∀ body ∈ others, body.length < 256 ^ width) (hwidth : 0 < width)
    (heq : frames width bodies = frames width others ++ tail) :
    ∃ later, bodies = others ++ later ∧ tail = frames width later := by
  induction others generalizing bodies with
  | nil => exact ⟨bodies, rfl, heq.symm⟩
  | cons other others ih =>
      rw [frames_cons, List.append_assoc] at heq
      cases bodies with
      | nil =>
          have hlength := congrArg List.length heq
          rw [frames_nil, frame, List.length_append, List.length_append,
            length_toBeBytes, List.length_nil] at hlength
          omega
      | cons body bodies =>
          rw [frames_cons] at heq
          obtain ⟨rfl, hrest⟩ := frame_append_inj (hbodies body List.mem_cons_self)
            (hothers other List.mem_cons_self) heq
          obtain ⟨later, rfl, htail⟩ :=
            ih (fun body hbody => hbodies body (List.mem_cons_of_mem _ hbody))
              (fun body hbody => hothers body (List.mem_cons_of_mem _ hbody)) hrest
          exact ⟨later, rfl, htail⟩

/-- A file that is cut, and not at the end of a frame, is no file. -/
theorem take_ne_frames {bodies others : List (List UInt8)} {cut : ℕ}
    (hbodies : ∀ body ∈ bodies, body.length < 256 ^ width)
    (hothers : ∀ body ∈ others, body.length < 256 ^ width) (hwidth : 0 < width)
    (hcut : cut ≤ (frames width bodies).length)
    (hboundary : ∀ count, cut ≠ (frames width (bodies.take count)).length) :
    (frames width bodies).take cut ≠ frames width others := by
  intro heq
  have hsplit : frames width bodies =
      frames width others ++ (frames width bodies).drop cut := by
    rw [← heq, List.take_append_drop]
  obtain ⟨later, rfl, -⟩ :=
    append_of_frames_eq hbodies hothers hwidth hsplit
  apply hboundary others.length
  rw [List.take_left, ← heq, List.length_take, Nat.min_eq_left hcut]

end LengthPrefix
