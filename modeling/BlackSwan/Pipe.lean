import BlackSwan.Framing

/-! # Framed messages on the way

A sender puts whole frames at the end of a byte pipe, and a receiver takes bytes from its front in
reads of at most `r` bytes, in any sizes, and cuts frames out of what it has buffered.

`Piped C r left buf wire` says that the receiver holds `buf`, that `wire` is still on the way, and
that both together are the frames of the messages `left`, none of which is whole in `buf`.  A
message is `Roomy` when its frame and one more read are within the window of the decoder.  `push`
and `read` are the two moves, and `left_of_nil` says that nothing is left once the pipe is empty. -/

namespace Wire

variable {π μ : Type} {D : Decoder π}

namespace FrameCode

variable (C : FrameCode D μ) (r : ℕ)

/-- The message is found however the bytes are cut into reads of at most `r` bytes. -/
def Roomy (m : μ) : Prop := C.Valid m ∧ (C.encode m).length + r ≤ D.window

structure Piped (left : List μ) (buf wire : Bytes) : Prop where
  bytes : buf ++ wire = C.stream left
  pending : C.Pending left buf
  roomy : ∀ m ∈ left, C.Roomy r m

namespace Piped

variable {C r} {left : List μ} {buf wire chunk : Bytes}

theorem nil : C.Piped r [] [] [] := ⟨rfl, rfl, by simp⟩

/-- The sender adds a frame. -/
theorem push (h : C.Piped r left buf wire) {m : μ} (hm : C.Roomy r m) :
    C.Piped r (left ++ [m]) buf (wire ++ C.encode m) where
  bytes := by
    rw [← List.append_assoc, h.bytes, C.stream_append, C.stream_cons, C.stream_nil, List.append_nil]
  pending := by
    cases left with
    | nil =>
        have hnil : buf = [] := h.pending
        rw [hnil]
        exact C.encode_pos m
    | cons m' left => exact h.pending
  roomy := by
    intro m' hm'
    rcases List.mem_append.mp hm' with hm' | hm'
    · exact h.roomy m' hm'
    · rw [List.mem_singleton.mp hm']
      exact hm

/-- The sender adds several frames. -/
theorem pushAll (h : C.Piped r left buf wire) {ms : List μ} (hms : ∀ m ∈ ms, C.Roomy r m) :
    C.Piped r (left ++ ms) buf (wire ++ C.stream ms) := by
  induction ms generalizing left wire with
  | nil => simpa using h
  | cons m ms ih =>
      have hm := ih (h.push (hms m List.mem_cons_self)) fun m' hm' => hms m' (List.mem_cons_of_mem _ hm')
      simpa using hm

/-- Below the window the buffer has room for one more read. -/
theorem length_lt (h : C.Piped r left buf (chunk ++ wire)) (hr : chunk.length ≤ r)
    (hne : left ≠ []) : (buf ++ chunk).length < D.window := by
  obtain ⟨m, left, rfl⟩ := List.exists_cons_of_ne_nil hne
  have hlt : buf.length < (C.encode m).length := h.pending
  have hroom := (h.roomy m List.mem_cons_self).2
  rw [List.length_append]
  omega

/-- **A read finds the messages that have become whole**, and leaves the front of the next one. -/
theorem read (h : C.Piped r left buf (chunk ++ wire)) (hr : chunk.length ≤ r) :
    ∃ done left', left = done ++ left' ∧ (D.frames (buf ++ chunk)).map C.view = done ∧
      C.Piped r left' (D.rest (buf ++ chunk)) wire := by
  have hbytes : (buf ++ chunk) ++ wire = C.stream left := by rw [List.append_assoc, h.bytes]
  by_cases hne : left = []
  · subst hne
    obtain ⟨hd, hw⟩ := List.append_eq_nil_iff.mp (hbytes.trans C.stream_nil)
    rw [hd, hw]
    exact ⟨[], [], rfl, rfl, nil⟩
  · obtain ⟨done, left', rfl, hsplit, hframes, hpend⟩ := C.parse_stream left (buf ++ chunk) wire
      (fun m hm => (h.roomy m hm).1) hbytes (h.length_lt hr hne)
    refine ⟨done, left', rfl, hframes, ?_, hpend,
      fun m hm => h.roomy m (List.mem_append_right _ hm)⟩
    rw [hsplit, C.stream_append, List.append_assoc] at hbytes
    exact List.append_cancel_left hbytes

/-- **An empty pipe has delivered everything.** -/
theorem left_of_nil (h : C.Piped r left buf []) : left = [] := by
  cases left with
  | nil => rfl
  | cons m left =>
      have hlt : buf.length < (C.encode m).length := h.pending
      have hbytes := congrArg List.length h.bytes
      rw [List.append_nil, C.stream_cons, List.length_append] at hbytes
      omega

end Piped

end FrameCode

end Wire
