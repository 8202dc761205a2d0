import Skattr.Lib.Cbor

/-!
# Length-prefixed frames on a byte stream

A frame is a big-endian 32-bit length followed by that many body bytes. A stream is a sequence of
frames followed by bytes that do not complete another one. `frames_prefix` says that this reading
is unique: whoever has taken whole frames off the stream and is left with an incomplete rest has
taken every complete frame that was put on it, in order.
-/

namespace Skattr.Lib.Framing

def frame (body : Bytes) : Bytes := beBytes 4 body.length ++ body

def frames (bodies : List Bytes) : Bytes := (bodies.map frame).flatten

def announced (bytes : Bytes) : Nat := ofBe (bytes.take 4)

/-- A body that may be sent: neither empty nor above the limit. -/
def Sendable (limit : Nat) (body : Bytes) : Prop := 0 < body.length ∧ body.length ≤ limit

/-- The bytes do not start with a whole frame of an acceptable length. -/
def Incomplete (limit : Nat) (bytes : Bytes) : Prop :=
  bytes.length < 4 ∨ announced bytes = 0 ∨ limit < announced bytes ∨
    bytes.length < 4 + announced bytes

instance (limit : Nat) (body : Bytes) : Decidable (Sendable limit body) :=
  inferInstanceAs (Decidable (_ ∧ _))

instance (limit : Nat) (bytes : Bytes) : Decidable (Incomplete limit bytes) :=
  inferInstanceAs (Decidable (_ ∨ _))

@[simp] theorem frames_nil : frames [] = [] := rfl

theorem frames_cons (body : Bytes) (bodies : List Bytes) :
    frames (body :: bodies) = frame body ++ frames bodies := rfl

theorem frames_append (first second : List Bytes) :
    frames (first ++ second) = frames first ++ frames second := by
  simp [frames]

@[simp] theorem length_frame (body : Bytes) : (frame body).length = 4 + body.length := by
  simp [frame]

variable {limit : Nat} {body rest : Bytes}

theorem announced_frame_append (hlimit : limit < 256 ^ 4) (hbody : Sendable limit body)
    (rest : Bytes) : announced (frame body ++ rest) = body.length := by
  have htake : (frame body ++ rest).take 4 = beBytes 4 body.length := by
    rw [frame, List.append_assoc]
    exact List.take_left' (length_beBytes 4 body.length)
  rw [announced, htake]
  exact ofBe_beBytes (Nat.lt_of_le_of_lt hbody.2 hlimit)

theorem drop_frame_append (body rest : Bytes) : (frame body ++ rest).drop 4 = body ++ rest := by
  rw [frame, List.append_assoc]
  exact List.drop_left' (length_beBytes 4 _)

theorem not_incomplete_frame_append (hlimit : limit < 256 ^ 4) (hbody : Sendable limit body)
    (rest : Bytes) : ¬ Incomplete limit (frame body ++ rest) := by
  intro h
  have hannounced := announced_frame_append hlimit hbody rest
  have hlength : (frame body ++ rest).length = 4 + body.length + rest.length := by simp
  obtain ⟨hpos, hle⟩ := hbody
  unfold Incomplete at h
  rw [hannounced, hlength] at h
  omega

theorem frame_append_inj (hlimit : limit < 256 ^ 4) {first second : Bytes}
    (hfirst : Sendable limit first) (hsecond : Sendable limit second) {other : Bytes}
    (h : frame first ++ rest = frame second ++ other) : first = second ∧ rest = other := by
  have hlength : first.length = second.length := by
    rw [← announced_frame_append hlimit hfirst rest, h, announced_frame_append hlimit hsecond]
  have hframes := List.append_inj h (by simp [hlength])
  refine ⟨?_, hframes.2⟩
  exact (List.append_inj hframes.1 (by simp)).2

theorem frames_prefix (hlimit : limit < 256 ^ 4) {sent taken : List Bytes}
    (hsent : ∀ body ∈ sent, Sendable limit body) (htaken : ∀ body ∈ taken, Sendable limit body)
    (hrest : Incomplete limit rest) (h : frames sent <+: frames taken ++ rest) :
    sent <+: taken := by
  induction sent generalizing taken with
  | nil => exact List.nil_prefix
  | cons body sent ih =>
    obtain ⟨tail, htail⟩ := h
    rw [frames_cons, List.append_assoc] at htail
    have hbody := hsent body List.mem_cons_self
    cases taken with
    | nil =>
      rw [frames_nil, List.nil_append] at htail
      exact absurd (htail ▸ hrest) (not_incomplete_frame_append hlimit hbody _)
    | cons first taken =>
      rw [frames_cons, List.append_assoc] at htail
      obtain ⟨rfl, heq⟩ :=
        frame_append_inj hlimit hbody (htaken first List.mem_cons_self) htail
      have hrec := ih (fun b hb => hsent b (List.mem_cons_of_mem _ hb))
        (fun b hb => htaken b (List.mem_cons_of_mem _ hb)) ⟨tail, heq⟩
      exact (List.prefix_cons_inj body).mpr hrec

end Skattr.Lib.Framing
