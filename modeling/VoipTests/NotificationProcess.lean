import VoipTests.Lib.Lines

/-!
# VoipTests.NotificationProcess

`rtpproxy_io_callback` of OpenSIPS with the drain patch: the notifications of
an RTPProxy, one a line, as they come in over a connection that is read without
waiting.

The connection has a stream of bytes; how it is cut into reads, and when a read
is interrupted or finds nothing, is a list of answers.  The buffer is memory of
`BUF_LEN` bytes with whatever the stack held before.
`rtpproxyIoCallback_lines` is the result: the commands are the lines.
-/

namespace VoipTests.NotificationProcess

/-- What `read` may set `errno` to. -/
inductive Errno where
  | eintr
  | eagain
  | ewouldblock
  | other
  deriving DecidableEq, Repr

/-- How `read` answers: with some of the bytes, at most `k + 1`, or not. -/
inductive Answer where
  | upTo (k : Nat)
  | err (errno : Errno)
  deriving DecidableEq, Repr

/-- Why the connection has been closed. -/
inductive Closed where
  | tooLarge
  | readFailed
  | endOfFile
  | handlerFailed
  deriving DecidableEq, Repr

/-- What the callback returns then. -/
def Closed.ret : Closed → Int
  | .endOfFile => 0
  | _ => -1

/-- A connection: what it will still send, how it will be read, the sizes `read`
has been called with, the commands `notification_handler` has, what
`notify->remaining` holds, and whether it has been closed. -/
structure Conn where
  stream : List UInt8
  answers : List Answer
  reads : List Nat
  commands : List (List UInt8)
  remaining : List UInt8
  closed : Option Closed
  deriving DecidableEq, Repr

namespace Conn

/-- A new connection. -/
def start (stream : List UInt8) (answers : List Answer) : Conn :=
  ⟨stream, answers, [], [], [], none⟩

/-- `free_rtpp_notify` -/
def free (c : Conn) (why : Closed) : Conn := { c with remaining := [], closed := some why }

/-- `read(fd, buf, count)`: there are no bytes at the end of the stream, or if
none are asked for.  After the last answer nothing more comes. -/
def read (c : Conn) (count : Nat) : Except Errno (List UInt8) × Conn :=
  let c := { c with reads := c.reads ++ [count] }
  match c.answers with
  | [] => (.error .eagain, c)
  | .err errno :: answers => (.error errno, { c with answers := answers })
  | .upTo k :: answers =>
      let len := min (k + 1) count
      (.ok (c.stream.take len), { c with stream := c.stream.drop len, answers := answers })

end Conn

/-- What the callback is compiled with and what it calls. -/
structure Env where
  /-- `BUF_LEN` -/
  bufLen : Nat
  bufLen_pos : 0 < bufLen
  notificationHandler : List UInt8 → Int
  /-- `pkg_malloc(size)` is not `NULL`. -/
  pkgMalloc : Nat → Bool
  /-- What is in `buffer` at the start. -/
  stack : Conn → List UInt8
  stack_length : ∀ c, (stack c).length = bufLen

/-! ## memory -/

/-- The `len` bytes at `p`. -/
def slice (buffer : List UInt8) (p len : Nat) : List UInt8 := (buffer.drop p).take len

/-- Bytes are written at `p`. -/
def blit (buffer : List UInt8) (p : Nat) (bytes : List UInt8) : List UInt8 :=
  buffer.take p ++ bytes ++ buffer.drop (p + bytes.length)

/-- `q_memchr(p, c, size)` -/
def qMemchr (buffer : List UInt8) (p : Nat) (c : UInt8) (size : Nat) : Option Nat :=
  ((slice buffer p size).idxOf? c).map (p + ·)

/-- `'\n'` -/
def newline : UInt8 := 10

theorem slice_zero (buffer : List UInt8) (len : Nat) : slice buffer 0 len = buffer.take len := rfl

theorem length_slice {buffer : List UInt8} {p len : Nat} (h : p + len ≤ buffer.length) :
    (slice buffer p len).length = len := by
  rw [slice, List.length_take, List.length_drop]
  omega

theorem length_blit {buffer bytes : List UInt8} {p : Nat} (h : p + bytes.length ≤ buffer.length) :
    (blit buffer p bytes).length = buffer.length := by
  rw [blit, List.length_append, List.length_append, List.length_take, List.length_drop]
  omega

theorem take_blit {buffer : List UInt8} {p : Nat} (bytes : List UInt8) (h : p ≤ buffer.length) :
    (blit buffer p bytes).take (bytes.length + p) = buffer.take p ++ bytes := by
  have hlen : (buffer.take p ++ bytes).length = bytes.length + p := by
    rw [List.length_append, List.length_take_of_le h, Nat.add_comm]
  rw [blit, ← hlen, List.take_left]

/-- `memmove(buffer, p, len)`, if there is anything to move. -/
def front (buffer : List UInt8) (p len : Nat) : List UInt8 :=
  if len = 0 then buffer else blit buffer 0 (slice buffer p len)

theorem front_spec {buffer : List UInt8} {p len : Nat} (h : p + len ≤ buffer.length) :
    (front buffer p len).length = buffer.length ∧
      (front buffer p len).take len = slice buffer p len := by
  have hlen := length_slice h
  rw [front]
  split
  · next hzero => exact ⟨rfl, by rw [hzero, slice, List.take_zero, List.take_zero]⟩
  · refine ⟨length_blit (by omega), ?_⟩
    have htake := take_blit (slice buffer p len) (Nat.zero_le buffer.length)
    rwa [hlen, Nat.add_zero, List.take_zero, List.nil_append] at htake

/-- What is found is the end of the line at `p`. -/
theorem qMemchr_eq_some {buffer : List UInt8} {p size sp : Nat} {c : UInt8}
    (h : qMemchr buffer p c size = some sp) :
    p ≤ sp ∧ sp < p + size ∧ c ∉ slice buffer p (sp - p) ∧
      slice buffer p size =
        slice buffer p (sp - p) ++ c :: slice buffer (sp + 1) (size - (sp - p + 1)) := by
  simp only [qMemchr, Option.map_eq_some_iff] at h
  obtain ⟨i, hi, rfl⟩ := h
  obtain ⟨hlt, hat, hbefore⟩ := List.idxOf?_eq_some_iff.mp hi
  have hsize : i < size := Nat.lt_of_lt_of_le hlt (List.length_take_le _ _)
  have hline : slice buffer p i = (slice buffer p size).take i := by
    rw [slice, slice, List.take_take, Nat.min_eq_left hsize.le]
  have hrest : slice buffer (p + i + 1) (size - (i + 1)) = (slice buffer p size).drop (i + 1) := by
    rw [slice, slice, List.drop_take, List.drop_drop, Nat.add_assoc]
  rw [Nat.add_sub_cancel_left, hline, hrest]
  refine ⟨Nat.le_add_right p i, by omega, ?_, ?_⟩
  · rw [List.mem_take_iff_getElem]
    rintro ⟨j, hj, heq⟩
    exact hbefore j (by omega) heq
  · rw [← hat, List.getElem_cons_drop, List.take_append_drop]

theorem qMemchr_eq_none {buffer : List UInt8} {p size : Nat} {c : UInt8} :
    qMemchr buffer p c size = none ↔ c ∉ slice buffer p size := by
  rw [qMemchr, Option.map_eq_none_iff, List.idxOf?_eq_none_iff]

/-! ## the callback -/

theorem Conn.length_answers_read {c c' : Conn} {count : Nat} {errno : Errno}
    (h : c.read count = (.error errno, c')) (hne : errno ≠ .eagain) :
    c'.answers.length < c.answers.length := by
  unfold Conn.read at h
  dsimp only at h
  split at h
  · cases h
    exact absurd rfl hne
  · next heq =>
    cases h
    rw [heq]
    exact Nat.lt_succ_self _
  · cases h

/-- `do len = read(...); while (len == -1 && errno == EINTR)` -/
def Conn.readRetry (c : Conn) (count : Nat) : Except Errno (List UInt8) × Conn :=
  match h : c.read count with
  | (.error .eintr, c') =>
      have := Conn.length_answers_read h (by decide)
      c'.readRetry count
  | r => r
termination_by c.answers.length

/-- The inner loop, over the `left` bytes from `p` up to `stop` (the `end` of
the data): the commands that the handler gets, and where the loop leaves `p`;
nowhere if the handler fails. -/
def dispatch (env : Env) (buffer : List UInt8) (stop p left : Nat) :
    List (List UInt8) × Option Nat :=
  match h : qMemchr buffer p newline left with
  | none => ([], some p)
  | some sp =>
      have := qMemchr_eq_some h
      let command := slice buffer p (sp - p)
      if env.notificationHandler command < 0 then ([command], none)
      else if sp + 1 < stop then
        let r := dispatch env buffer stop (sp + 1) (left - (sp - p + 1))
        (command :: r.1, r.2)
      else ([command], some (sp + 1))
termination_by left

/-- What is left in the buffer is kept for the next call, or dropped if there is
no memory. -/
def Conn.keep (env : Env) (buffer : List UInt8) (offset : Nat) (c : Conn) : Conn :=
  if offset = 0 then c
  else if env.pkgMalloc offset then { c with remaining := slice buffer 0 offset }
  else c

theorem Conn.length_answers_readRetry {c c' : Conn} {count : Nat} {bytes : List UInt8}
    (h : c.readRetry count = (.ok bytes, c')) : c'.answers.length < c.answers.length := by
  rw [readRetry] at h
  split at h
  · next hread =>
    exact (length_answers_readRetry h).trans (length_answers_read hread (by decide))
  · unfold read at h
    dsimp only at h
    split at h
    · cases h
    · cases h
    · next heq =>
      cases h
      rw [heq]
      exact Nat.lt_succ_self _
termination_by c.answers.length
decreasing_by
  next hread _ => exact length_answers_read hread (by decide)

/-- The outer loop, with `offset` bytes in the buffer. -/
def readLoop (env : Env) (buffer : List UInt8) (offset : Nat) (c : Conn) : Conn :=
  if offset = env.bufLen then c.free .tooLarge
  else match h : c.readRetry (env.bufLen - offset) with
    | (.error errno, c') =>
        if errno = .eagain ∨ errno = .ewouldblock then c'.keep env buffer offset
        else c'.free .readFailed
    | (.ok [], c') => c'.free .endOfFile
    | (.ok bytes, c') =>
        have := Conn.length_answers_readRetry h
        let buffer := blit buffer offset bytes
        let total := bytes.length + offset
        let r := dispatch env buffer total 0 total
        let c' := { c' with commands := c'.commands ++ r.1 }
        match r.2 with
        | none => c'.free .handlerFailed
        | some p =>
            let offset := total - p
            readLoop env (front buffer p offset) offset c'
termination_by c.answers.length

/-- `rtpproxy_io_callback`: what the last call has kept comes first. -/
def rtpproxyIoCallback (env : Env) (c : Conn) : Conn :=
  readLoop env (blit (env.stack c) 0 c.remaining) c.remaining.length { c with remaining := [] }

/-- The reactor calls back `k` times, unless the connection is closed before. -/
def reactor (env : Env) : Nat → Conn → Conn
  | 0, c => c
  | k + 1, c => if c.closed.isSome then c else reactor env k (rtpproxyIoCallback env c)

/-! ## one call -/

section spec

variable {env : Env}

/-- **The inner loop passes on the lines that have ended**, and leaves `p` at
the unfinished one. -/
theorem dispatch_eq (hok : ∀ command, 0 ≤ env.notificationHandler command)
    (buffer : List UInt8) (p left stop : Nat) (hstop : p + left = stop) :
    ∃ q ≤ stop, dispatch env buffer stop p left =
        (Lines.ended newline (slice buffer p left), some q) ∧
      slice buffer q (stop - q) = Lines.unfinished newline (slice buffer p left) := by
  induction left using Nat.strong_induction_on generalizing p with
  | _ left ih =>
      rw [dispatch]
      split
      · next hnone =>
        have hmem := qMemchr_eq_none.mp hnone
        rw [Lines.ended_of_not_mem hmem, Lines.unfinished_of_not_mem hmem]
        exact ⟨p, by omega, rfl, by rw [← hstop, Nat.add_sub_cancel_left]⟩
      · next sp hsome =>
        obtain ⟨hle, hlt, hline, hslice⟩ := qMemchr_eq_some hsome
        rw [if_neg (Int.not_lt.mpr (hok _)), hslice, Lines.ended_line hline,
          Lines.unfinished_line hline]
        split
        · next hmore =>
          obtain ⟨q, hq, hrest, hun⟩ := ih (left - (sp - p + 1)) (by omega) (sp + 1) (by omega)
          exact ⟨q, hq, by rw [hrest], hun⟩
        · next hlast =>
          -- The newline was the last byte.
          have hleft : left - (sp - p + 1) = 0 := by omega
          have hstop' : stop - (sp + 1) = 0 := by omega
          have hnil : slice buffer (sp + 1) 0 = [] := List.take_zero
          exact ⟨sp + 1, by omega, by rw [hleft, hnil, Lines.ended_nil],
            by rw [hstop', hleft, hnil, Lines.unfinished_nil]⟩

/-- How many of the answers have bytes, or the end of the stream. -/
def Conn.pending (c : Conn) : Nat := c.answers.countP fun
  | .upTo _ => true
  | .err _ => false

/-- What reads of `count` bytes do: they change nothing but the stream. -/
structure Conn.Read (c : Conn) (count : Nat) (r : Except Errno (List UInt8)) (c' : Conn) :
    Prop where
  commands : c'.commands = c.commands
  remaining : c'.remaining = c.remaining
  closed : c'.closed = c.closed
  reads : ∀ k ∈ c'.reads, k ∈ c.reads ∨ k = count
  suffix : c'.answers <:+ c.answers
  progress : c'.answers.length < c.answers.length ∨ c'.answers = []
  error : ∀ errno, r = .error errno → c'.stream = c.stream ∧ c'.pending = c.pending ∧
    (errno = .other → .err .other ∈ c.answers)
  ok : ∀ bytes, r = .ok bytes → c.stream = bytes ++ c'.stream ∧ bytes.length ≤ count ∧
    c.pending = c'.pending + 1 ∧ (0 < count → bytes = [] → c.stream = [])

namespace Conn

variable {c c' c'' : Conn} {count : Nat} {r : Except Errno (List UInt8)} {errno : Errno}

theorem read_spec (c : Conn) (count : Nat) :
    c.Read count (c.read count).1 (c.read count).2 := by
  have hreads : ∀ k ∈ c.reads ++ [count], k ∈ c.reads ∨ k = count := by
    simp
  unfold read
  dsimp only
  split
  · next heq =>
    refine ⟨rfl, rfl, rfl, hreads, List.suffix_refl _, .inr heq, ?_, by simp⟩
    rintro errno ⟨⟩
    exact ⟨rfl, rfl, by simp⟩
  · next errno answers heq =>
    refine ⟨rfl, rfl, rfl, hreads, ?_, .inl ?_, ?_, by simp⟩
    · rw [heq]
      exact List.suffix_cons _ _
    · rw [heq]
      exact Nat.lt_succ_self _
    · rintro _ ⟨⟩
      refine ⟨rfl, by rw [pending, pending, heq, List.countP_cons_of_neg (by simp)], ?_⟩
      rintro rfl
      exact heq ▸ List.mem_cons_self
  · next k answers heq =>
    refine ⟨rfl, rfl, rfl, hreads, ?_, .inl ?_, by simp, ?_⟩
    · rw [heq]
      exact List.suffix_cons _ _
    · rw [heq]
      exact Nat.lt_succ_self _
    · rintro _ ⟨⟩
      refine ⟨(List.take_append_drop _ _).symm, ?_, ?_, ?_⟩
      · rw [List.length_take]
        omega
      · rw [pending, pending, heq, List.countP_cons_of_pos rfl]
      · intro hcount hnil
        rcases List.take_eq_nil_iff.mp hnil with hzero | hnil
        · omega
        · exact hnil

/-- A read that is tried again. -/
theorem Read.again (h : c.Read count (.error errno) c') (h' : c'.Read count r c'') :
    c.Read count r c'' := by
  obtain ⟨hstream, hpending, -⟩ := h.error errno rfl
  refine ⟨h'.commands.trans h.commands, h'.remaining.trans h.remaining,
    h'.closed.trans h.closed, ?_, h'.suffix.trans h.suffix, ?_, ?_, ?_⟩
  · intro k hk
    rcases h'.reads k hk with hk | hk
    · exact h.reads k hk
    · exact .inr hk
  · rcases h'.progress with hlt | hnil
    · exact .inl (hlt.trans_le h.suffix.length_le)
    · exact .inr hnil
  · intro e he
    obtain ⟨hs, hp, hm⟩ := h'.error e he
    exact ⟨hs.trans hstream, hp.trans hpending, fun ho => h.suffix.subset (hm ho)⟩
  · intro bytes he
    rw [← hstream, ← hpending]
    exact h'.ok bytes he

theorem readRetry_spec (c : Conn) (count : Nat) :
    c.Read count (c.readRetry count).1 (c.readRetry count).2 := by
  rw [readRetry]
  split
  · next c' hread =>
    have hfirst := c.read_spec count
    rw [hread] at hfirst
    exact hfirst.again (c'.readRetry_spec count)
  · exact c.read_spec count
termination_by c.answers.length
decreasing_by
  next hread => exact length_answers_read hread (by decide)

/-- A read that is interrupted is tried again. -/
theorem readRetry_ne_eintr (c : Conn) (count : Nat) :
    (c.readRetry count).1 ≠ .error .eintr := by
  rw [readRetry]
  split
  · next c' hread => exact c'.readRetry_ne_eintr count
  · next hne =>
    intro heq
    exact hne _ (Prod.ext heq rfl)
termination_by c.answers.length
decreasing_by
  next hread => exact length_answers_read hread (by decide)

end Conn

/-- A connection with the bytes `stream` and the reads `answers`, of which the
bytes `d` have been read: the handler has had the lines that have ended. -/
structure Framed (env : Env) (stream : List UInt8) (answers : List Answer) (d : List UInt8)
    (c : Conn) : Prop where
  split : d ++ c.stream = stream
  commands : c.commands = Lines.ended newline d
  fits : ∀ line ∈ Lines.ended newline d, line.length < env.bufLen
  reads : ∀ k ∈ c.reads, 0 < k
  suffix : c.answers <:+ answers

/-- What becomes of the unfinished line. -/
def Ends (env : Env) (answers : List Answer) (d : List UInt8) (c : Conn) : Prop :=
  match c.closed with
  | none => c.remaining = Lines.unfinished newline d ∧
      (Lines.unfinished newline d).length < env.bufLen
  | some .tooLarge => env.bufLen ≤ (Lines.unfinished newline d).length
  | some .endOfFile => c.stream = [] ∧ (Lines.unfinished newline d).length < env.bufLen
  | some .readFailed => .err .other ∈ answers
  | some .handlerFailed => False

variable {stream d : List UInt8} {answers : List Answer} {c c' : Conn}

/-- A read that brings nothing. -/
theorem Framed.same {count : Nat} {r : Except Errno (List UInt8)}
    (h : Framed env stream answers d c) (hread : c.Read count r c') (hcount : 0 < count)
    (hstream : c'.stream = c.stream) : Framed env stream answers d c' := by
  refine ⟨hstream ▸ h.split, hread.commands.trans h.commands, h.fits, ?_,
    hread.suffix.trans h.suffix⟩
  intro k hk
  rcases hread.reads k hk with hk | rfl
  · exact h.reads k hk
  · exact hcount

/-- A read, and the lines that it has ended. -/
theorem Framed.read {count : Nat} {bytes : List UInt8} (h : Framed env stream answers d c)
    (hread : c.Read count (.ok bytes) c') (hcount : 0 < count)
    (hfits : (Lines.unfinished newline d ++ bytes).length ≤ env.bufLen) :
    Framed env stream answers (d ++ bytes) { c' with
      commands := c'.commands ++ Lines.ended newline (Lines.unfinished newline d ++ bytes) } := by
  have hended : Lines.ended newline (d ++ bytes) = _ := Lines.ended_append d bytes
  refine ⟨?_, ?_, ?_, ?_, hread.suffix.trans h.suffix⟩
  · rw [List.append_assoc, ← (hread.ok bytes rfl).1, h.split]
  · rw [hread.commands, h.commands, hended]
  · intro line hline
    rw [hended, List.mem_append] at hline
    rcases hline with hline | hline
    · exact h.fits line hline
    · exact (Lines.length_lt_of_mem_ended hline).trans_le hfits
  · intro k hk
    rcases hread.reads k hk with hk | rfl
    · exact h.reads k hk
    · exact hcount

theorem Framed.free {why : Closed} (h : Framed env stream answers d c) :
    Framed env stream answers d (c.free why) :=
  ⟨h.split, h.commands, h.fits, h.reads, h.suffix⟩

/-- What is kept is the unfinished line. -/
theorem Framed.keep {buffer : List UInt8} {offset : Nat} (h : Framed env stream answers d c)
    (hmalloc : ∀ size, env.pkgMalloc size = true) (hopen : c.closed = none)
    (hremaining : c.remaining = []) (hbuffer : buffer.take offset = Lines.unfinished newline d)
    (hlen : (Lines.unfinished newline d).length = offset) (hoffset : offset < env.bufLen) :
    Framed env stream answers d (c.keep env buffer offset) ∧
      Ends env answers d (c.keep env buffer offset) := by
  rw [Conn.keep]
  split
  · next hzero =>
    have hnil := List.eq_nil_of_length_eq_zero (hlen.trans hzero)
    rw [Ends, hopen]
    exact ⟨h, hremaining.trans hnil.symm, hlen ▸ hoffset⟩
  · rw [if_pos (hmalloc offset), Ends, hopen]
    exact ⟨⟨h.split, h.commands, h.fits, h.reads, h.suffix⟩, hbuffer, hlen ▸ hoffset⟩

@[simp] theorem Conn.answers_keep (buffer : List UInt8) (offset : Nat) (c : Conn) :
    (c.keep env buffer offset).answers = c.answers := by
  unfold keep
  split
  · rfl
  · split <;> rfl

@[simp] theorem Conn.pending_keep (buffer : List UInt8) (offset : Nat) (c : Conn) :
    (c.keep env buffer offset).pending = c.pending := by
  rw [pending, answers_keep, pending]

/-- What a call makes of a connection that is open and of which `d` has been
read: it gets on with the answers, and each of them that is not an error brings
a byte. -/
structure Calls (env : Env) (stream : List UInt8) (answers : List Answer) (d : List UInt8)
    (c : Conn) (d' : List UInt8) (c' : Conn) : Prop where
  framed : Framed env stream answers d' c'
  ends : Ends env answers d' c'
  progress : c'.closed = none → c'.answers.length < c.answers.length ∨ c'.answers = []
  bytes : c'.closed = none → d.length + c.pending ≤ d'.length + c'.pending

/-- A read that fails: the call ends, and the unfinished line is kept if there is
just nothing to be read. -/
theorem Framed.failed {buffer : List UInt8} {offset count : Nat} {errno : Errno}
    (h : Framed env stream answers d c) (hmalloc : ∀ size, env.pkgMalloc size = true)
    (heq : c.readRetry count = (.error errno, c')) (hcount : 0 < count) (hopen : c.closed = none)
    (hremaining : c.remaining = []) (hbuffer : buffer.take offset = Lines.unfinished newline d)
    (hlen : (Lines.unfinished newline d).length = offset) (hlt : offset < env.bufLen) :
    Calls env stream answers d c d (if errno = .eagain ∨ errno = .ewouldblock then
      c'.keep env buffer offset else c'.free .readFailed) := by
  have hread := c.readRetry_spec count
  have hne := c.readRetry_ne_eintr count
  rw [heq] at hread hne
  obtain ⟨hstream, hpending, hother⟩ := hread.error errno rfl
  have hframed := h.same hread hcount hstream
  split
  · next hagain =>
    obtain ⟨hkept, hends⟩ := hframed.keep hmalloc (hread.closed.trans hopen)
      (hread.remaining.trans hremaining) hbuffer hlen hlt
    refine ⟨hkept, hends, fun _ => ?_, fun _ => ?_⟩
    · rw [Conn.answers_keep]
      exact hread.progress
    · rw [Conn.pending_keep, hpending]
  · next hagain =>
    have herrno : errno = .other := by cases errno <;> simp_all
    exact ⟨hframed.free, h.suffix.subset (hother herrno), nofun, nofun⟩

/-- **What a read leaves in the buffer**: the lines it has ended are passed on, and
the unfinished one is moved to the front. -/
theorem dispatch_read (hok : ∀ command, 0 ≤ env.notificationHandler command) {buffer : List UInt8}
    (bytes : List UInt8) {offset : Nat} (hfits : bytes.length + offset ≤ buffer.length)
    (hbuffer : buffer.take offset = Lines.unfinished newline d) :
    ∃ q ≤ bytes.length + offset,
      dispatch env (blit buffer offset bytes) (bytes.length + offset) 0 (bytes.length + offset) =
        (Lines.ended newline (Lines.unfinished newline d ++ bytes), some q) ∧
      (front (blit buffer offset bytes) q (bytes.length + offset - q)).length = buffer.length ∧
      (front (blit buffer offset bytes) q (bytes.length + offset - q)).take (bytes.length + offset - q) =
        Lines.unfinished newline (d ++ bytes) := by
  have hsize : (blit buffer offset bytes).length = buffer.length := length_blit (by omega)
  have hdata : (blit buffer offset bytes).take (bytes.length + offset) =
      Lines.unfinished newline d ++ bytes := by
    rw [take_blit _ (by omega), hbuffer]
  obtain ⟨q, hq, hdispatch, hrest⟩ := dispatch_eq hok (blit buffer offset bytes) 0
    (bytes.length + offset) (bytes.length + offset) (Nat.zero_add _)
  rw [slice_zero, hdata] at hdispatch hrest
  rw [← Lines.unfinished_append] at hrest
  have hrange : q + (bytes.length + offset - q) ≤ (blit buffer offset bytes).length := by omega
  obtain ⟨hsize', hfront⟩ := front_spec hrange
  exact ⟨q, hq, hdispatch, hsize'.trans hsize, hfront.trans hrest⟩

/-- What the loop makes of a connection from which `bytes` have been read. -/
theorem Calls.read {bytes d' : List UInt8} {c₁ c₂ : Conn} (h : Calls env stream answers (d ++ bytes) c₁ d' c₂)
    (hanswers : c₁.answers.length < c.answers.length) (hpending : c.pending = c₁.pending + 1)
    (hne : bytes ≠ []) : Calls env stream answers d c d' c₂ := by
  refine ⟨h.framed, h.ends, fun hopen => ?_, fun hopen => ?_⟩
  · exact (h.progress hopen).imp_left fun hlt => hlt.trans hanswers
  · have hmore := h.bytes hopen
    have hpos := List.length_pos_iff.mpr hne
    rw [List.length_append] at hmore
    omega

/-- **The outer loop**, whatever is in the buffer after the unfinished line. -/
theorem readLoop_spec (hok : ∀ command, 0 ≤ env.notificationHandler command)
    (hmalloc : ∀ size, env.pkgMalloc size = true) (buffer : List UInt8) (offset : Nat)
    (hsize : buffer.length = env.bufLen) (hoffset : offset ≤ env.bufLen)
    (hbuffer : buffer.take offset = Lines.unfinished newline d) (hopen : c.closed = none)
    (hremaining : c.remaining = []) (h : Framed env stream answers d c) :
    ∃ d', Calls env stream answers d c d' (readLoop env buffer offset c) := by
  induction hn : c.answers.length using Nat.strong_induction_on generalizing buffer offset d c with
  | _ n ih =>
      have hlen : (Lines.unfinished newline d).length = offset := by
        rw [← hbuffer, List.length_take_of_le (hsize ▸ hoffset)]
      rw [readLoop]
      split
      · next hfull =>
        exact ⟨d, ⟨h.split, h.commands, h.fits, h.reads, h.suffix⟩, (hlen.trans hfull).ge,
          nofun, nofun⟩
      · next hfull =>
        have hlt : offset < env.bufLen := by omega
        have hcount : 0 < env.bufLen - offset := by omega
        have hread := c.readRetry_spec (env.bufLen - offset)
        split
        · next errno c' heq =>
          exact ⟨d, h.failed hmalloc heq hcount hopen hremaining hbuffer hlen hlt⟩
        · next c' heq =>
          -- The stream has ended, for the buffer has not been full.
          rw [heq] at hread
          obtain ⟨hstream, -, -, hnil⟩ := hread.ok [] rfl
          have hend : c'.stream = [] := hstream.symm.trans (hnil hcount rfl)
          exact ⟨d, (h.same hread hcount hstream.symm).free, ⟨hend, hlen ▸ hlt⟩, nofun, nofun⟩
        · next bytes c' hne heq =>
          rw [heq] at hread
          obtain ⟨-, hle, hpending, -⟩ := hread.ok bytes rfl
          have hfits : (Lines.unfinished newline d ++ bytes).length ≤ env.bufLen := by
            rw [List.length_append]
            omega
          obtain ⟨q, hq, hdispatch, hsize', hrest⟩ := dispatch_read hok bytes (by omega) hbuffer
          have hshorter : c'.answers.length < c.answers.length := Conn.length_answers_readRetry heq
          dsimp only
          rw [hdispatch]
          have hnext := h.read hread hcount hfits
          obtain ⟨d', hcalls⟩ := ih c'.answers.length (hn ▸ hshorter) (d := d ++ bytes) (c := { c' with
              commands := c'.commands ++ Lines.ended newline (Lines.unfinished newline d ++ bytes) })
            _ _ (hsize'.trans hsize) (by omega) hrest (hread.closed.trans hopen)
            (hread.remaining.trans hremaining) hnext rfl
          exact ⟨d', hcalls.read hshorter hpending hne⟩

/-- A call takes up what the last one has kept. -/
theorem rtpproxyIoCallback_spec (hok : ∀ command, 0 ≤ env.notificationHandler command)
    (hmalloc : ∀ size, env.pkgMalloc size = true) (hopen : c.closed = none)
    (h : Framed env stream answers d c) (hends : Ends env answers d c) :
    ∃ d', Calls env stream answers d c d' (rtpproxyIoCallback env c) := by
  rw [Ends, hopen] at hends
  obtain ⟨hremaining, hlt⟩ := hends
  have hsize := env.stack_length c
  have hlen : c.remaining.length < env.bufLen := hremaining ▸ hlt
  have htake := take_blit c.remaining (Nat.zero_le (env.stack c).length)
  rw [Nat.add_zero, List.take_zero, List.nil_append, hremaining] at htake
  obtain ⟨d', hcalls⟩ := readLoop_spec hok hmalloc (c := { c with remaining := [] })
    (blit (env.stack c) 0 c.remaining) c.remaining.length ((length_blit (by omega)).trans hsize)
    hlen.le (hremaining ▸ htake) hopen rfl ⟨h.split, h.commands, h.fits, h.reads, h.suffix⟩
  exact ⟨d', hcalls.framed, hcalls.ends, hcalls.progress, hcalls.bytes⟩

theorem reactor_of_closed {k : Nat} (h : c.closed ≠ none) : reactor env k c = c := by
  cases k with
  | zero => rfl
  | succ k => rw [reactor, if_pos (Option.isSome_iff_ne_none.mpr h)]

/-- **Any number of calls.** -/
theorem reactor_spec (hok : ∀ command, 0 ≤ env.notificationHandler command)
    (hmalloc : ∀ size, env.pkgMalloc size = true) (k : Nat)
    (h : Framed env stream answers d c) (hends : Ends env answers d c) :
    ∃ d', Framed env stream answers d' (reactor env k c) ∧
      Ends env answers d' (reactor env k c) ∧
      ((reactor env k c).closed = none →
        ((reactor env k c).answers.length + k ≤ c.answers.length ∨
          (reactor env k c).answers = []) ∧
        d.length + c.pending ≤ d'.length + (reactor env k c).pending) := by
  induction k generalizing d c with
  | zero => exact ⟨d, h, hends, fun _ => ⟨.inl le_rfl, le_rfl⟩⟩
  | succ k ih =>
      rw [reactor]
      split
      · next hclosed =>
        refine ⟨d, h, hends, fun hopen => ?_⟩
        rw [hopen] at hclosed
        cases hclosed
      · next hopen =>
        obtain ⟨d', hcalls⟩ := rtpproxyIoCallback_spec hok hmalloc
          (Option.not_isSome_iff_eq_none.mp hopen) h hends
        obtain ⟨d'', hframed, hends', hmore⟩ := ih hcalls.framed hcalls.ends
        refine ⟨d'', hframed, hends', fun hopen'' => ?_⟩
        obtain ⟨hanswers, hbytes⟩ := hmore hopen''
        have hopen' : (rtpproxyIoCallback env c).closed = none := by
          by_contra hclosed
          rw [reactor_of_closed hclosed] at hopen''
          exact hclosed hopen''
        refine ⟨?_, (hcalls.bytes hopen').trans hbytes⟩
        rcases hanswers with hlt | hnil
        · rcases hcalls.progress hopen' with hlt' | hnil
          · exact .inl (by omega)
          · rw [hnil, List.length_nil] at hlt
            exact .inr (List.eq_nil_of_length_eq_zero (by omega))
        · exact .inr hnil

/-- What the handler has had when the bytes `d` of the stream have been read: the
lines before the first that does not fit into the buffer.  A line that is not
complete is kept as long as the connection is open, and no read is for nothing. -/
structure Delivered (env : Env) (stream : List UInt8) (answers : List Answer) (d : List UInt8)
    (c : Conn) : Prop where
  split : d ++ c.stream = stream
  commands : c.commands = Lines.upTo newline env.bufLen d
  reads : ∀ count ∈ c.reads, 0 < count
  kept : c.closed = none →
    c.remaining = Lines.unfinished newline d ∧ ¬ Lines.TooLong newline env.bufLen d
  tooLarge : c.closed = some .tooLarge → Lines.TooLong newline env.bufLen d
  endOfFile : c.closed = some .endOfFile → d = stream ∧ ¬ Lines.TooLong newline env.bufLen d
  readFailed : c.closed = some .readFailed → .err .other ∈ answers
  handled : c.closed ≠ some .handlerFailed

theorem Framed.delivered (h : Framed env stream answers d c) (hends : Ends env answers d c) :
    Delivered env stream answers d c := by
  have hall := Lines.upTo_eq_ended_iff.mpr h.fits
  unfold Ends at hends
  refine ⟨h.split, h.commands.trans hall.symm, h.reads, ?_, ?_, ?_, ?_, ?_⟩ <;> intro hclosed <;>
    simp only [hclosed] at hends
  · exact ⟨hends.1, Lines.not_tooLong_iff.mpr ⟨hall, hends.2⟩⟩
  · exact Lines.tooLong_iff.mpr (.inr hends)
  · refine ⟨?_, Lines.not_tooLong_iff.mpr ⟨hall, hends.2⟩⟩
    have hsplit := h.split
    rwa [hends.1, List.append_nil] at hsplit
  · exact hends

/-- **A connection that has been closed, not by a failed read, has delivered the
stream**, and `-1` says that a line did not fit. -/
theorem Delivered.whole (h : Delivered env stream answers d c) {why : Closed}
    (hclosed : c.closed = some why) (hread : why ≠ .readFailed) :
    c.commands = Lines.upTo newline env.bufLen stream ∧
      (why.ret = -1 ↔ Lines.TooLong newline env.bufLen stream) := by
  cases why with
  | tooLarge =>
      have hlong := h.tooLarge hclosed
      rw [h.commands, ← h.split]
      exact ⟨(Lines.upTo_append hlong).symm, iff_of_true rfl (hlong.append _)⟩
  | endOfFile =>
      obtain ⟨rfl, hshort⟩ := h.endOfFile hclosed
      exact ⟨h.commands, iff_of_false (by decide) hshort⟩
  | readFailed => exact absurd rfl hread
  | handlerFailed => exact absurd hclosed h.handled

/-- **The commands are the lines**, however the stream is delivered and however
often the reactor calls back; and it comes to an end when there are reads enough
for all of the bytes. -/
theorem rtpproxyIoCallback_lines (env : Env)
    (hok : ∀ command, 0 ≤ env.notificationHandler command)
    (hmalloc : ∀ size, env.pkgMalloc size = true) (stream : List UInt8) (answers : List Answer)
    (k : Nat) :
    (∃ d, Delivered env stream answers d (reactor env k (.start stream answers))) ∧
      (∀ why, (reactor env k (.start stream answers)).closed = some why → why ≠ .readFailed →
        (reactor env k (.start stream answers)).commands =
            Lines.upTo newline env.bufLen stream ∧
          (why.ret = -1 ↔ Lines.TooLong newline env.bufLen stream)) ∧
      (answers.length ≤ k → stream.length < (Conn.start stream answers).pending →
        (reactor env k (.start stream answers)).closed ≠ none) := by
  have hstart : Framed env stream answers [] (.start stream answers) :=
    ⟨rfl, rfl, fun _ hline => absurd hline List.not_mem_nil, fun _ hk => absurd hk List.not_mem_nil,
      List.suffix_refl _⟩
  obtain ⟨d, hframed, hends, hopen⟩ := reactor_spec hok hmalloc k hstart ⟨rfl, env.bufLen_pos⟩
  have hdelivered := hframed.delivered hends
  refine ⟨⟨d, hdelivered⟩, fun why hclosed hread => hdelivered.whole hclosed hread, ?_⟩
  intro hk hmore hnone
  obtain ⟨hanswers, hbytes⟩ := hopen hnone
  have hnil : (reactor env k (.start stream answers)).answers = [] := by
    rcases hanswers with hlen | hnil
    · change _ ≤ answers.length at hlen
      exact List.eq_nil_of_length_eq_zero (by omega)
    · exact hnil
  have hd : d.length ≤ stream.length := by
    rw [← hframed.split, List.length_append]
    exact Nat.le_add_right _ _
  rw [Conn.pending, Conn.pending, hnil, List.countP_nil, List.length_nil] at hbytes
  rw [Conn.pending] at hmore
  omega

/-- A buffer of four bytes. -/
def Env.four : Env :=
  ⟨4, by decide, fun _ => 0, fun _ => true, fun _ => [0, 0, 0, 0], fun _ => rfl⟩

/-- Two lines in three reads and two calls, the second line of exactly four bytes. -/
theorem rtpproxyIoCallback_lines_split : ∃ d, Delivered .four [97, 10, 98, 99, 100, 10]
    [.upTo 2, .err .eintr, .upTo 0, .err .eagain, .upTo 3] d
    (reactor .four 2 (.start [97, 10, 98, 99, 100, 10]
      [.upTo 2, .err .eintr, .upTo 0, .err .eagain, .upTo 3])) :=
  (rtpproxyIoCallback_lines .four (fun _ => Int.le_refl 0) (fun _ => rfl) _ _ 2).1

end spec

end VoipTests.NotificationProcess
