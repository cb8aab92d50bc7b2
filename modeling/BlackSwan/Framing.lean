import BlackSwan.Bytes

/-! # Framed byte streams

A receiver that cuts a byte stream into frames with a decoder it calls on everything it has
buffered, keeping what is left for the next read.

* `Decoder π` is the receiver's side: `decode data len` looks at the buffer `data` through a
  length argument `len` of which only the residue modulo `window` is seen (the range of the
  argument's type).  The fields say that a decoder reads only inside its buffer and that a
  decoded frame is not empty and lies within the length it saw.
* `drain` is the receive loop with a handler; it ends early when the handler fails.  `parse` is
  the same loop without the handler, and `drain_eq` separates the two.
* `FrameCode D μ` is the sender's side of the same format.  `attempt_stream` is one call of the
  decoder on the front of a stream, and `parse_stream` the whole loop.
* `feed` adds one read to the buffer.  `feedAll_iff` is the exact condition under which every
  message arrives and nothing is left: no read may bring the buffer to `window` bytes, counted
  from the start of the first frame that was not complete before the read (`InWindow`). -/

namespace Wire

/-- How a call ends when it does not return. -/
inductive Fault where
  /-- a read outside the buffer or of an object that is gone, or a length that wraps below zero -/
  | outOfBounds
  /-- a call through a null pointer -/
  | nullCall
  /-- a call on an object that has been deleted -/
  | deleted
  /-- an exception -/
  | thrown
deriving DecidableEq, Repr

/-- A call on a state `σ`: it returns or faults, and the state it leaves is kept either way. -/
abbrev Call (σ α : Type) := EStateM.Result Fault σ α

/-- What a decoder says about a buffer. -/
inductive Attempt (π : Type) where
  | fault
  | short
  | frame (p : π)
deriving DecidableEq, Repr

/-- A frame decoder with the range of its length argument. -/
structure Decoder (π : Type) where
  window : ℕ
  decode : Bytes → ℕ → Attempt π
  size : π → ℕ
  decode_ne_fault : ∀ data len, len ≤ data.length → decode data len ≠ .fault
  size_le : ∀ data len p, decode data len = .frame p → size p ≤ len % window
  size_pos : ∀ p, 0 < size p

variable {π σ μ : Type}

namespace Decoder

variable (D : Decoder π)

/-- The decoder as the loops call it, on everything that is buffered. -/
def attempt (data : Bytes) : Attempt π := D.decode data data.length

theorem attempt_ne_fault (data : Bytes) : D.attempt data ≠ .fault :=
  D.decode_ne_fault data _ le_rfl

theorem size_le_mod {data : Bytes} {p : π} (h : D.attempt data = .frame p) :
    D.size p ≤ data.length % D.window := D.size_le _ _ _ h

theorem size_le_length {data : Bytes} {p : π} (h : D.attempt data = .frame p) :
    D.size p ≤ data.length := (D.size_le_mod h).trans (Nat.mod_le _ _)

/-! ### The receive loop -/

/-- The receive loop: decode a frame at the front of the buffer, step over it, handle it.
The first argument bounds the number of rounds. -/
def drain (handle : π → σ → Call σ Unit) : ℕ → Bytes → σ → Call σ Bytes
  | 0, data, s => .ok data s
  | fuel + 1, data, s =>
      if data = [] then .ok data s else
      match D.attempt data with
      | .fault => .error .outOfBounds s
      | .short => .ok data s
      | .frame p =>
          -- `len -= size` would wrap here
          if data.length < D.size p then .error .outOfBounds s else
          match handle p s with
          | .ok _ s' => drain handle fuel (data.drop (D.size p)) s'
          | .error e s' => .error e s'

/-- The frames at the front of a buffer, and what is left behind them. -/
def parse : ℕ → Bytes → List π × Bytes
  | 0, data => ([], data)
  | fuel + 1, data =>
      if data = [] then ([], data) else
      match D.attempt data with
      | .frame p => (p :: (parse fuel (data.drop (D.size p))).1,
          (parse fuel (data.drop (D.size p))).2)
      | _ => ([], data)

/-- The frames the receive loop finds in a buffer. -/
def frames (data : Bytes) : List π := (D.parse data.length data).1

/-- What the receive loop leaves of a buffer. -/
def rest (data : Bytes) : Bytes := (D.parse data.length data).2

end Decoder

/-- Handle a list of frames one after the other, until one fails. -/
def handleAll (handle : π → σ → Call σ Unit) : List π → σ → Call σ Unit
  | [], s => .ok () s
  | p :: ps, s =>
      match handle p s with
      | .ok _ s' => handleAll handle ps s'
      | .error e s' => .error e s'

/-- The fault that a call ends with, if any. -/
def faultOf {α : Type} : Call σ α → Option Fault
  | .ok _ _ => none
  | .error e _ => some e

/-- How a call may end: with a result in `I`, or with a fault and a state in `E`. -/
def Ends {α : Type} (I : σ → Prop) (E : Fault → σ → Prop) : Call σ α → Prop
  | .ok _ s => I s
  | .error e s => E e s

theorem Ends.imp {α : Type} {I J : σ → Prop} {E F : Fault → σ → Prop} {r : Call σ α}
    (h : Ends I E r) (hi : ∀ s, I s → J s) (he : ∀ e s, E e s → F e s) : Ends J F r := by
  cases r with
  | ok _ s => exact hi s h
  | error e s => exact he e s h

/-- Two things that are known of the same end. -/
theorem Ends.and {α : Type} {I J : σ → Prop} {E F : Fault → σ → Prop} {r : Call σ α}
    (h : Ends I E r) (h' : Ends J F r) :
    Ends (fun s => I s ∧ J s) (fun e s => E e s ∧ F e s) r := by
  cases r with
  | ok _ s => exact ⟨h, h'⟩
  | error e s => exact ⟨h, h'⟩

/-- One call after the other. -/
theorem Ends.bind {α β : Type} {I J : σ → Prop} {E : Fault → σ → Prop} {x : EStateM Fault σ α}
    {f : α → EStateM Fault σ β} {s : σ} (h : Ends I E (x s))
    (hf : ∀ a s', I s' → Ends J E (f a s')) : Ends J E ((x >>= f) s) := by
  show Ends J E (EStateM.bind x f s)
  unfold EStateM.bind
  cases hx : x s with
  | ok a s' =>
      rw [hx] at h
      exact hf a s' h
  | error e s' =>
      rw [hx] at h
      exact h

/-- An invariant of the handler is one of the whole list. -/
theorem ends_handleAll {I : σ → Prop} {E : Fault → σ → Prop} {handle : π → σ → Call σ Unit}
    (h : ∀ p s, I s → Ends I E (handle p s)) (ps : List π) (s : σ) (hs : I s) :
    Ends I E (handleAll handle ps s) := by
  induction ps generalizing s with
  | nil => exact hs
  | cons p ps ih =>
      have hp := h p s hs
      simp only [handleAll]
      cases hr : handle p s with
      | ok _ s' =>
          rw [hr] at hp
          exact ih s' hp
      | error e s' =>
          rw [hr] at hp
          exact hp

/-- The call ends as another one does, or else with the fault `e`. -/
def EndsAs {α : Type} (e : Fault) (x' x : Call σ α) : Prop := x' = x ∨ ∃ s, x' = .error e s

theorem handleAll_endsAs {e : Fault} {handle' handle : π → σ → Call σ Unit}
    (h : ∀ p s, EndsAs e (handle' p s) (handle p s)) (ps : List π) (s : σ) :
    EndsAs e (handleAll handle' ps s) (handleAll handle ps s) := by
  induction ps generalizing s with
  | nil => exact .inl rfl
  | cons p ps ih =>
      simp only [handleAll]
      obtain hp | ⟨s', hp⟩ := h p s
      · rw [hp]
        cases handle p s with
        | ok _ s' => exact ih s'
        | error e' s' => exact .inl rfl
      · rw [hp]
        exact .inr ⟨s', rfl⟩

/-- A handler that fails on some frames: a list is handled to its end if there is none of them in it,
as long as handling a frame does not change which ones they are. -/
theorem handleAll_returns_iff {I : σ → Prop} {fatal : π → σ → Prop} {handle : π → σ → Call σ Unit}
    (hbad : ∀ p s, I s → fatal p s → ∃ e s', handle p s = .error e s')
    (hgood : ∀ p s, I s → ¬ fatal p s → ∃ s', handle p s = .ok () s' ∧ I s' ∧
      ∀ q, fatal q s' ↔ fatal q s)
    (ps : List π) (s : σ) (hs : I s) :
    (∃ s', handleAll handle ps s = .ok () s') ↔ ∀ p ∈ ps, ¬ fatal p s := by
  induction ps generalizing s with
  | nil => exact iff_of_true ⟨s, rfl⟩ (by simp)
  | cons p ps ih =>
      rw [List.forall_mem_cons]
      by_cases hp : fatal p s
      · obtain ⟨e, s', he⟩ := hbad p s hs hp
        exact iff_of_false (by simp [handleAll, he]) fun h => h.1 hp
      · obtain ⟨s', hok, hs', hsame⟩ := hgood p s hs hp
        simp only [handleAll, hok, ih s' hs', hsame]
        exact (and_iff_right hp).symm

/-- Handlers that agree on the states of an invariant. -/
theorem handleAll_congr {I : σ → Prop} {handle' handle : π → σ → Call σ Unit}
    (heq : ∀ p s, I s → handle' p s = handle p s)
    (hinv : ∀ p s s', I s → handle p s = .ok () s' → I s') (ps : List π) (s : σ) (hs : I s) :
    handleAll handle' ps s = handleAll handle ps s := by
  induction ps generalizing s with
  | nil => rfl
  | cons p ps ih =>
      simp only [handleAll, heq p s hs]
      cases hr : handle p s with
      | ok u s' => exact ih s' (hinv p s s' hs hr)
      | error e s' => rfl

theorem handleAll_append (handle : π → σ → Call σ Unit) : ∀ (ps qs : List π) (s : σ),
    handleAll handle (ps ++ qs) s = match handleAll handle ps s with
      | .ok _ s' => handleAll handle qs s'
      | .error e s' => .error e s'
  | [], qs, s => rfl
  | p :: ps, qs, s => by
      simp only [List.cons_append, handleAll]
      cases handle p s with
      | ok _ s' => exact handleAll_append handle ps qs s'
      | error e s' => rfl

namespace Decoder

variable (D : Decoder π)

/-- The bounds checks of `drain` never fail. -/
theorem drain_eq_parse (handle : π → σ → Call σ Unit) : ∀ (fuel : ℕ) (data : Bytes) (s : σ),
    D.drain handle fuel data s = match handleAll handle (D.parse fuel data).1 s with
      | .ok _ s' => .ok (D.parse fuel data).2 s'
      | .error e s' => .error e s'
  | 0, data, s => rfl
  | fuel + 1, data, s => by
      unfold drain parse
      by_cases hd : data = []
      · simp [hd, handleAll]
      · simp only [hd, if_false]
        cases ha : D.attempt data with
        | fault => exact absurd ha (D.attempt_ne_fault data)
        | short => rfl
        | frame p =>
            have hle := D.size_le_length ha
            simp only [if_neg (not_lt.mpr hle), handleAll]
            cases handle p s with
            | ok _ s' => exact drain_eq_parse handle fuel _ s'
            | error e s' => rfl

/-- **The loop is parsing, then handling.** -/
theorem drain_eq (handle : π → σ → Call σ Unit) (data : Bytes) (s : σ) :
    D.drain handle data.length data s = match handleAll handle (D.frames data) s with
      | .ok _ s' => .ok (D.rest data) s'
      | .error e s' => .error e s' :=
  D.drain_eq_parse handle data.length data s

/-- More fuel than bytes changes nothing, as every round takes at least one byte. -/
theorem parse_fuel : ∀ (fuel fuel' : ℕ) (data : Bytes), data.length ≤ fuel → data.length ≤ fuel' →
    D.parse fuel data = D.parse fuel' data
  | 0, 0, _, _, _ => rfl
  | 0, fuel' + 1, data, h, _ => by
      have : data = [] := List.length_eq_zero_iff.mp (by omega)
      simp [parse, this]
  | fuel + 1, 0, data, _, h => by
      have : data = [] := List.length_eq_zero_iff.mp (by omega)
      simp [parse, this]
  | fuel + 1, fuel' + 1, data, h, h' => by
      unfold parse
      by_cases hd : data = []
      · simp [hd]
      · simp only [hd, if_false]
        cases ha : D.attempt data with
        | fault => rfl
        | short => rfl
        | frame p =>
            have hp := D.size_pos p
            have hlen : (data.drop (D.size p)).length < data.length := by
              have := List.length_pos_iff.mpr hd
              simp only [List.length_drop]
              omega
            simp only [parse_fuel fuel fuel' (data.drop (D.size p)) (by omega) (by omega)]

theorem parse_of_frame {data : Bytes} {p : π} (ha : D.attempt data = .frame p) (hd : data ≠ []) :
    D.frames data = p :: D.frames (data.drop (D.size p)) ∧
      D.rest data = D.rest (data.drop (D.size p)) := by
  have hp := D.size_pos p
  have hlen : (data.drop (D.size p)).length ≤ data.length - 1 := by
    have := List.length_pos_iff.mpr hd
    simp only [List.length_drop]
    omega
  have e : D.parse data.length data = (p :: (D.parse (data.length - 1) (data.drop (D.size p))).1,
      (D.parse (data.length - 1) (data.drop (D.size p))).2) := by
    obtain ⟨n, hn⟩ : ∃ n, data.length = n + 1 := ⟨data.length - 1, by
      have := List.length_pos_iff.mpr hd; omega⟩
    rw [hn, Nat.add_sub_cancel]
    simp [parse, hd, ha]
  unfold frames rest
  rw [e, D.parse_fuel _ _ _ hlen le_rfl]
  exact ⟨rfl, rfl⟩

theorem parse_of_short {data : Bytes} (ha : D.attempt data = .short) :
    D.frames data = [] ∧ D.rest data = data := by
  unfold frames rest
  cases data with
  | nil => exact ⟨rfl, rfl⟩
  | cons b bs => simp [parse, ha]

@[simp] theorem frames_nil : D.frames [] = [] := rfl
@[simp] theorem rest_nil : D.rest [] = [] := rfl

/-- What is left is the end of the buffer. -/
theorem parse_suffix : ∀ (fuel : ℕ) (data : Bytes), (D.parse fuel data).2 <:+ data
  | 0, data => List.suffix_refl _
  | fuel + 1, data => by
      unfold parse
      by_cases hd : data = []
      · simp [hd]
      · simp only [hd, if_false]
        cases D.attempt data with
        | fault => exact List.suffix_refl _
        | short => exact List.suffix_refl _
        | frame p => exact (parse_suffix fuel _).trans (List.drop_suffix _ _)

theorem rest_eq_drop (data : Bytes) : data.drop (data.length - (D.rest data).length) = D.rest data :=
  (List.suffix_iff_eq_drop.mp (D.parse_suffix data.length data)).symm

theorem length_rest_le (data : Bytes) : (D.rest data).length ≤ data.length :=
  (D.parse_suffix data.length data).length_le

/-- The loop stops by itself: the buffer is empty, or the decoder wants more of it. -/
theorem rest_stops (data : Bytes) : D.rest data = [] ∨ D.attempt (D.rest data) = .short := by
  induction hn : data.length using Nat.strong_induction_on generalizing data with
  | _ n ih =>
      by_cases hd : data = []
      · exact .inl (by rw [hd, rest_nil])
      · cases ha : D.attempt data with
        | fault => exact absurd ha (D.attempt_ne_fault data)
        | short =>
            rw [(D.parse_of_short ha).2]
            exact .inr ha
        | frame p =>
            have hp := D.size_pos p
            have hpos := List.length_pos_iff.mpr hd
            have hlen : (data.drop (D.size p)).length = data.length - D.size p := List.length_drop
            rw [(D.parse_of_frame ha hd).2]
            exact ih _ (by omega) _ rfl

/-- **A buffer is its frames and the rest**, when every frame is written as it was read. -/
theorem frames_append_rest {encode : π → Bytes}
    (he : ∀ data p, D.attempt data = .frame p → encode p ++ data.drop (D.size p) = data)
    (data : Bytes) : ((D.frames data).map encode).flatten ++ D.rest data = data := by
  induction hn : data.length using Nat.strong_induction_on generalizing data with
  | _ n ih =>
      by_cases hd : data = []
      · rw [hd]
        rfl
      · cases ha : D.attempt data with
        | fault => exact absurd ha (D.attempt_ne_fault data)
        | short =>
            rw [(D.parse_of_short ha).1, (D.parse_of_short ha).2]
            rfl
        | frame p =>
            have hp := D.size_pos p
            have hpos := List.length_pos_iff.mpr hd
            have hlen : (data.drop (D.size p)).length = data.length - D.size p := List.length_drop
            have hrest := ih _ (by omega) (data.drop (D.size p)) rfl
            rw [(D.parse_of_frame ha hd).1, (D.parse_of_frame ha hd).2, List.map_cons,
              List.flatten_cons, List.append_assoc, hrest]
            exact he data p ha

/-- A buffer of `window` bytes or more never drains below `window` again: the decoder sees only
the part of its length above a multiple of `window`, and a frame fits into that part. -/
theorem window_le_rest (hW : 0 < D.window) (data : Bytes) (h : D.window ≤ data.length) :
    D.window ≤ (D.rest data).length := by
  induction hn : data.length using Nat.strong_induction_on generalizing data with
  | _ n ih =>
      have hd : data ≠ [] := by
        rintro rfl
        simp only [List.length_nil] at h
        omega
      cases ha : D.attempt data with
      | fault => exact absurd ha (D.attempt_ne_fault data)
      | short => rw [(D.parse_of_short ha).2]; exact h
      | frame p =>
          have hs := D.size_le_mod ha
          have hp := D.size_pos p
          have hq : D.window * 1 ≤ D.window * (data.length / D.window) :=
            Nat.mul_le_mul_left _ ((Nat.one_le_div_iff hW).mpr h)
          have hm := Nat.div_add_mod data.length D.window
          have hl : (data.drop (D.size p)).length = data.length - D.size p := by simp
          rw [(D.parse_of_frame ha hd).2]
          exact ih _ (by omega) _ (by omega) rfl

end Decoder

/-! ### Reads -/

/-- One read: append the bytes read, run the loop, keep what it leaves. -/
def feed (D : Decoder π) (handle : π → σ → Call σ Unit) (buf chunk : Bytes) (s : σ) :
    Call σ Bytes :=
  D.drain handle (buf ++ chunk).length (buf ++ chunk) s

/-- A sequence of reads, until one faults. -/
def feedAll (D : Decoder π) (handle : π → σ → Call σ Unit) : List Bytes → Bytes → σ → Call σ Bytes
  | [], buf, s => .ok buf s
  | c :: cs, buf, s =>
      match feed D handle buf c s with
      | .ok buf' s' => feedAll D handle cs buf' s'
      | .error e s' => .error e s'

/-! ### The sender's side -/

/-- An encoding whose frames `D` decodes: below the window a whole frame is recognised whatever
follows it, and a proper prefix of a frame is not a frame. -/
structure FrameCode (D : Decoder π) (μ : Type) where
  Valid : μ → Prop
  encode : μ → Bytes
  view : π → μ
  encode_pos : ∀ m, 0 < (encode m).length
  decode_encode : ∀ m rest len, Valid m → (encode m).length ≤ len → len < D.window →
    ∃ p, D.decode (encode m ++ rest) len = .frame p ∧ view p = m ∧ D.size p = (encode m).length
  decode_short : ∀ m k, Valid m → k < (encode m).length → k < D.window →
    D.decode ((encode m).take k) k = .short

namespace FrameCode

variable {D : Decoder π} (C : FrameCode D μ)

/-- What the sender puts on the wire. -/
def stream (ms : List μ) : Bytes := (ms.map C.encode).flatten

/-- The frame sizes of a list of messages. -/
def sizes (ms : List μ) : List ℕ := ms.map fun m => (C.encode m).length

@[simp] theorem stream_nil : C.stream [] = [] := rfl

@[simp] theorem stream_cons (m : μ) (ms : List μ) :
    C.stream (m :: ms) = C.encode m ++ C.stream ms := rfl

theorem stream_append (ms ns : List μ) : C.stream (ms ++ ns) = C.stream ms ++ C.stream ns := by
  simp [stream]

theorem length_stream : ∀ (ms : List μ), (C.stream ms).length = (C.sizes ms).sum
  | [] => rfl
  | m :: ms => by simp [sizes, length_stream ms]

/-- `buf` is the front of the stream of `ms` and holds no whole frame. -/
def Pending (ms : List μ) (buf : Bytes) : Prop :=
  match ms with
  | [] => buf = []
  | m :: _ => buf.length < (C.encode m).length

/-- What the decoder finds at the front of a stream, below the window: the first message if it is
whole, and nothing otherwise. -/
theorem attempt_stream {ms : List μ} {data tail : Bytes} (hv : ∀ m ∈ ms, C.Valid m)
    (h : data ++ tail = C.stream ms) (hW : data.length < D.window) :
    (∃ m ms' d p, ms = m :: ms' ∧ data = C.encode m ++ d ∧ d ++ tail = C.stream ms' ∧
      D.attempt data = .frame p ∧ C.view p = m ∧ data.drop (D.size p) = d) ∨
    ((data = [] ∨ D.attempt data = .short) ∧ C.Pending ms data) := by
  cases ms with
  | nil =>
      have hd : data = [] := (List.append_eq_nil_iff.mp h).1
      exact .inr ⟨.inl hd, hd⟩
  | cons m ms =>
      rw [stream_cons] at h
      have hm : C.Valid m := hv m List.mem_cons_self
      by_cases hle : (C.encode m).length ≤ data.length
      · obtain ⟨d, rfl⟩ : C.encode m <+: data :=
          List.prefix_of_prefix_length_le (List.prefix_append _ _) (h ▸ List.prefix_append _ _) hle
        rw [List.append_assoc, List.append_cancel_left_eq] at h
        obtain ⟨p, hp, hview, hsize⟩ := C.decode_encode m d _ hm hle hW
        exact .inl ⟨m, ms, d, p, rfl, rfl, h, hp, hview, by rw [hsize, List.drop_left]⟩
      · have hcut : data = (C.encode m).take data.length := List.prefix_iff_eq_take.mp
          (List.prefix_of_prefix_length_le (h ▸ List.prefix_append _ _) (List.prefix_append _ _)
            (by omega))
        refine .inr ⟨.inr ?_, not_le.mp hle⟩
        rw [Decoder.attempt, hcut, List.length_take, min_eq_left (by omega)]
        exact C.decode_short m data.length hm (by omega) hW

/-- A buffer below the window that is the front of a stream parses into the messages that are
whole in it and leaves the front of the next one. -/
theorem parse_stream : ∀ (ms : List μ) (data tail : Bytes), (∀ m ∈ ms, C.Valid m) →
    data ++ tail = C.stream ms → data.length < D.window →
    ∃ done todo, ms = done ++ todo ∧ data = C.stream done ++ D.rest data ∧
      (D.frames data).map C.view = done ∧ C.Pending todo (D.rest data)
  | ms, data, tail, hv, h, hW => by
      rcases C.attempt_stream hv h hW with ⟨m, ms', d, p, rfl, rfl, h', ha, hview, hdrop⟩ | ⟨hno, hpend⟩
      · -- the first frame is complete: step over it
        have hne : C.encode m ++ d ≠ [] := by
          have := C.encode_pos m
          intro he
          simp only [List.append_eq_nil_iff] at he
          simp [he.1] at this
        obtain ⟨hf, hr⟩ := D.parse_of_frame ha hne
        rw [hdrop] at hf hr
        have hW' : d.length < D.window := by
          simp only [List.length_append] at hW
          omega
        obtain ⟨done, todo, hms, hdata, hmap, hpend⟩ := parse_stream ms' d tail
          (fun m hm => hv m (List.mem_cons_of_mem _ hm)) h' hW'
        refine ⟨m :: done, todo, by rw [hms]; rfl, ?_, ?_, ?_⟩
        · rw [hr, stream_cons, List.append_assoc, ← hdata]
        · rw [hf, List.map_cons, hview, hmap]
        · rw [hr]; exact hpend
      · -- the first frame is cut: nothing is decoded
        obtain ⟨hf, hr⟩ : D.frames data = [] ∧ D.rest data = data := by
          obtain rfl | ha := hno
          · exact ⟨rfl, rfl⟩
          · exact D.parse_of_short ha
        exact ⟨[], ms, rfl, by rw [hr]; rfl, by rw [hf]; rfl, by rw [hr]; exact hpend⟩
termination_by ms => ms.length

/-! ### What has arrived -/

/-- The messages that are whole in the first `n` bytes of their stream. -/
def whole : List μ → ℕ → List μ
  | [], _ => []
  | m :: ms, n =>
      if (C.encode m).length ≤ n then m :: whole ms (n - (C.encode m).length) else []

theorem whole_of_pending {ms : List μ} {buf : Bytes} (h : C.Pending ms buf) :
    C.whole ms buf.length = [] := by
  cases ms with
  | nil => rfl
  | cons m ms => exact if_neg (not_le.mpr h)

theorem whole_append : ∀ (done todo : List μ) (n : ℕ),
    C.whole (done ++ todo) ((C.stream done).length + n) = done ++ C.whole todo n
  | [], todo, n => by simp
  | m :: done, todo, n => by
      have hlen : (C.stream (m :: done)).length + n =
          (C.encode m).length + ((C.stream done).length + n) := by
        rw [stream_cons, List.length_append, Nat.add_assoc]
      rw [List.cons_append, hlen, whole, if_pos (Nat.le_add_right _ _), Nat.add_sub_cancel_left,
        whole_append done todo n]
      rfl

/-- A buffer that holds one whole frame and nothing else. -/
theorem parse_encode {m : μ} (hv : C.Valid m) (hW : (C.encode m).length < D.window) :
    ∃ p, C.view p = m ∧ D.frames (C.encode m) = [p] ∧ D.rest (C.encode m) = [] := by
  obtain ⟨p, hp, hview, hsize⟩ := C.decode_encode m [] _ hv le_rfl hW
  rw [List.append_nil] at hp
  have hne : C.encode m ≠ [] := List.ne_nil_of_length_pos (C.encode_pos m)
  obtain ⟨hf, hr⟩ := D.parse_of_frame (p := p) hp hne
  rw [hsize, List.drop_length] at hf hr
  exact ⟨p, hview, hf, hr⟩

/-! ### When every message arrives -/

/-- The handler that updates a state with what it is given and never fails. -/
def absorb (f : σ → μ → σ) (p : π) (s : σ) : Call σ Unit := .ok () (f s (C.view p))

theorem handleAll_absorb (f : σ → μ → σ) : ∀ (ps : List π) (s : σ),
    handleAll (C.absorb f) ps s = .ok () ((ps.map C.view).foldl f s)
  | [], s => rfl
  | p :: ps, s => by simp [handleAll, absorb, handleAll_absorb f ps]

theorem feed_absorb (f : σ → μ → σ) (buf chunk : Bytes) (s : σ) :
    feed D (C.absorb f) buf chunk s =
      .ok (D.rest (buf ++ chunk)) (((D.frames (buf ++ chunk)).map C.view).foldl f s) := by
  rw [feed, D.drain_eq, handleAll_absorb]

end FrameCode

/-- The start of the frame that position `p` of a stream lies in, for frames of the given sizes. -/
def frameStart : List ℕ → ℕ → ℕ
  | [], _ => 0
  | n :: ns, p => if n ≤ p then n + frameStart ns (p - n) else 0

theorem frameStart_append : ∀ (a b : List ℕ) (p : ℕ),
    frameStart (a ++ b) (a.sum + p) = a.sum + frameStart b p
  | [], b, p => by simp
  | n :: a, b, p => by
      have e : n + a.sum + p - n = a.sum + p := by omega
      simp only [List.cons_append, frameStart, List.sum_cons, e, frameStart_append a b p]
      rw [if_pos (by omega)]
      omega

/-- No read brings the buffer to `W` bytes: at every read the bytes from the start of the first
frame that was not complete before it, up to the end of the read, are fewer than `W`. -/
def InWindow (W : ℕ) (sizes : List ℕ) (chunks : List Bytes) : Prop :=
  ∀ k, k < chunks.length →
    (chunks.take (k + 1)).flatten.length < frameStart sizes (chunks.take k).flatten.length + W

instance (W : ℕ) (sizes : List ℕ) (chunks : List Bytes) : Decidable (InWindow W sizes chunks) :=
  inferInstanceAs (Decidable (∀ k, k < chunks.length → _))

theorem lt_frameStart_add {F : ℕ} (hF : 0 < F) : ∀ (ns : List ℕ) (p : ℕ), (∀ n ∈ ns, n ≤ F) →
    p ≤ ns.sum → p < frameStart ns p + F
  | [], p, _, h => by simp only [List.sum_nil] at h; simp only [frameStart]; omega
  | n :: ns, p, hn, h => by
      have h1 := hn n List.mem_cons_self
      simp only [List.sum_cons] at h
      simp only [frameStart]
      split_ifs with hle
      · have := lt_frameStart_add hF ns (p - n) (fun m hm => hn m (List.mem_cons_of_mem _ hm))
          (by omega)
        omega
      · omega

/-- Frames of at most `F` bytes read in pieces of at most `r` bytes stay in every window of
`F + r` bytes. -/
theorem inWindow_of_le {W F r : ℕ} {sizes : List ℕ} {chunks : List Bytes} (hF : 0 < F)
    (hW : F + r ≤ W) (hs : ∀ n ∈ sizes, n ≤ F) (hc : ∀ c ∈ chunks, c.length ≤ r)
    (hsum : chunks.flatten.length = sizes.sum) : InWindow W sizes chunks := by
  intro k hk
  have hp : (chunks.take k).flatten.length ≤ sizes.sum := by
    have e : chunks.flatten = (chunks.take k).flatten ++ (chunks.drop k).flatten := by
      rw [← List.flatten_append, List.take_append_drop]
    rw [← hsum, e, List.length_append]
    exact Nat.le_add_right _ _
  have hstart := lt_frameStart_add hF sizes _ hs hp
  have hread : (chunks.take (k + 1)).flatten.length =
      (chunks.take k).flatten.length + chunks[k].length := by
    rw [List.take_succ_eq_append_getElem hk, List.flatten_append, List.length_append,
      List.flatten_singleton]
  have hck := hc _ (List.getElem_mem hk)
  omega

namespace FrameCode

variable {D : Decoder π} (C : FrameCode D μ)

/-- `InWindow` in the middle of a stream: `buf` is what earlier reads left. -/
def InWindowFrom (ms : List μ) (buf : Bytes) (chunks : List Bytes) : Prop :=
  ∀ k, k < chunks.length →
    buf.length + (chunks.take (k + 1)).flatten.length <
      frameStart (C.sizes ms) (buf.length + (chunks.take k).flatten.length) + D.window

theorem frameStart_pending {ms : List μ} {buf : Bytes} (h : C.Pending ms buf) :
    frameStart (C.sizes ms) buf.length = 0 := by
  cases ms with
  | nil => rfl
  | cons m ms =>
      simp only [Pending] at h
      simp only [sizes, List.map_cons, frameStart]
      rw [if_neg (by omega)]

/-- One read that stays below the window moves the condition on to the rest of the stream. -/
theorem inWindowFrom_cons {done todo : List μ} {buf left c : Bytes} {cs : List Bytes}
    (hp : C.Pending (done ++ todo) buf) (hsplit : buf ++ c = C.stream done ++ left) :
    C.InWindowFrom (done ++ todo) buf (c :: cs) ↔
      (buf ++ c).length < D.window ∧ C.InWindowFrom todo left cs := by
  have hlen : buf.length + c.length = (C.sizes done).sum + left.length := by
    rw [← C.length_stream, ← List.length_append, ← List.length_append, hsplit]
  have hsz : C.sizes (done ++ todo) = C.sizes done ++ C.sizes todo := by simp [sizes]
  have hshift : ∀ n, frameStart (C.sizes (done ++ todo)) (buf.length + (c.length + n)) =
      (C.sizes done).sum + frameStart (C.sizes todo) (left.length + n) := by
    intro n
    have e : buf.length + (c.length + n) = (C.sizes done).sum + (left.length + n) := by omega
    rw [hsz, e, frameStart_append]
  constructor
  · intro h
    refine ⟨?_, fun k hk => ?_⟩
    · have h0 := h 0 (by simp)
      simp only [List.take_succ_cons, List.take_zero, List.flatten_cons, List.flatten_nil,
        List.append_nil, List.length_nil, Nat.add_zero, C.frameStart_pending hp] at h0
      simp only [List.length_append]
      omega
    · have hk' := h (k + 1) (by simpa using hk)
      simp only [List.take_succ_cons, List.flatten_cons, List.length_append, hshift] at hk'
      omega
  · rintro ⟨h0, h⟩ k hk
    cases k with
    | zero =>
        simp only [List.take_succ_cons, List.take_zero, List.flatten_cons, List.flatten_nil,
          List.append_nil, List.length_nil, Nat.add_zero, C.frameStart_pending hp]
        simp only [List.length_append] at h0
        omega
    | succ k =>
        have hk' := h k (by simpa using hk)
        simp only [List.take_succ_cons, List.flatten_cons, List.length_append, hshift]
        omega

/-- Once the buffer has reached the window it never empties. -/
theorem feedAll_ne_nil (hW : 0 < D.window) (f : σ → μ → σ) : ∀ (cs : List Bytes) (buf : Bytes)
    (s s' : σ), D.window ≤ buf.length → feedAll D (C.absorb f) cs buf s ≠ .ok [] s'
  | [], buf, s, s', h => by
      intro he
      simp only [feedAll, EStateM.Result.ok.injEq] at he
      rw [he.1] at h
      simp only [List.length_nil] at h
      omega
  | c :: cs, buf, s, s', h => by
      simp only [feedAll, feed_absorb]
      apply feedAll_ne_nil hW
      apply D.window_le_rest hW
      simp only [List.length_append]
      omega

/-- The invariant of the reads: what is buffered followed by what is still to be read is the
stream of the messages not yet handled. -/
theorem feedAll_pending_iff (hW : 0 < D.window) (f : σ → μ → σ) : ∀ (cs : List Bytes)
    (ms : List μ) (s : σ) (buf : Bytes), (∀ m ∈ ms, C.Valid m) → buf ++ cs.flatten = C.stream ms →
    C.Pending ms buf →
    (feedAll D (C.absorb f) cs buf s = .ok [] (ms.foldl f s) ↔ C.InWindowFrom ms buf cs)
  | [], ms, s, buf, _, hs, hp => by
      have hvac : C.InWindowFrom ms buf [] := fun k hk => absurd hk (by simp)
      refine iff_of_true ?_ hvac
      rw [List.flatten_nil, List.append_nil] at hs
      cases ms with
      | nil => simp [feedAll, hs]
      | cons m ms =>
          simp only [Pending] at hp
          rw [hs, stream_cons, List.length_append] at hp
          omega
  | c :: cs, ms, s, buf, hv, hs, hp => by
      rw [List.flatten_cons, ← List.append_assoc] at hs
      simp only [feedAll, feed_absorb]
      by_cases hlt : (buf ++ c).length < D.window
      · obtain ⟨done, todo, rfl, hdata, hmap, hpend⟩ :=
          C.parse_stream ms (buf ++ c) cs.flatten hv hs hlt
        have hrest : D.rest (buf ++ c) ++ cs.flatten = C.stream todo := by
          rw [hdata, stream_append, List.append_assoc, List.append_cancel_left_eq] at hs
          exact hs
        have hv' : ∀ m ∈ todo, C.Valid m := fun m hm => hv m (List.mem_append_right _ hm)
        rw [hmap, C.inWindowFrom_cons hp hdata, List.foldl_append,
          feedAll_pending_iff hW f cs todo (done.foldl f s) _ hv' hrest hpend]
        exact (and_iff_right hlt).symm
      · refine iff_of_false ?_ (fun h => hlt ?_)
        · exact C.feedAll_ne_nil hW f _ _ _ _ (D.window_le_rest hW _ (not_lt.mp hlt))
        · have h0 := h 0 (by simp)
          simpa [C.frameStart_pending hp] using h0

/-- **Exactly when a framed stream survives its fragmentation**: every message is handled once,
in order, and the buffer ends empty, if and only if no read brings the buffer to the window. -/
theorem feedAll_iff (hW : 0 < D.window) (f : σ → μ → σ) (ms : List μ) (s : σ)
    (chunks : List Bytes) (hv : ∀ m ∈ ms, C.Valid m) (h : chunks.flatten = C.stream ms) :
    feedAll D (C.absorb f) chunks [] s = .ok [] (ms.foldl f s) ↔
      InWindow D.window (C.sizes ms) chunks := by
  have hp : C.Pending ms [] := by
    cases ms with
    | nil => rfl
    | cons m ms => exact C.encode_pos m
  have key := C.feedAll_pending_iff hW f chunks ms s [] hv (by simpa using h) hp
  simpa [InWindowFrom, InWindow] using key

end FrameCode

end Wire
