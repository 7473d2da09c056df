import VoipTests.NotificationProcess
import Mathlib.Logic.Function.Basic

/-!
# VoipTests.NotificationMemory

What the process that listens for notifications uses, with the drain patch:
`rtpproxy_io_new_callback`, which takes a connection, `rtpproxy_io_callback`,
which reads from it and keeps a line that is not complete, and
`free_rtpp_notify`, which gives it up.

Memory, sockets, the list and the reactor's entries are taken and given back one
by one, and a misuse is a fault: memory that is freed twice or read after that, a
list entry that is removed twice, a socket that is closed or watched twice.
`Inv` says who holds what; from it none of the steps faults.
-/

namespace VoipTests.NotificationProcess

open Function (update)

/-! ## what the process holds -/

/-- `struct rtpp_notify`, without the address of the node. -/
structure Notify where
  fd : Nat
  /-- `NULL`, or where the unfinished line is kept. -/
  remaining : Option Nat
  remainingLen : Nat
  linked : Bool
  deriving DecidableEq, Repr

/-- What memory is taken for. -/
inductive Block where
  | notify (n : Notify)
  | bytes (bs : List UInt8)
  deriving DecidableEq, Repr

/-- The process: connections have the numbers in which they were accepted. -/
structure Proc where
  /-- The memory `pkg_malloc` has given, by address. -/
  heap : Nat → Option Block
  /-- `rtpp_notify_fds` -/
  fds : List Nat
  /-- What the reactor watches, and the argument of the callback. -/
  watched : Nat → Option Nat
  /-- The connections that are open. -/
  sockets : Nat → Option Nat
  /-- What each connection was to send, and how it was to be read. -/
  accepted : List (List UInt8 × List Answer)
  conns : List Conn
  /-- The commands `notification_handler` has had, with their connections. -/
  handled : List (Nat × List UInt8)

namespace Proc

/-- Before the first connection. -/
def start : Proc := ⟨fun _ => none, [], fun _ => none, fun _ => none, [], [], []⟩

variable (p : Proc)

/-- `pkg_malloc` has given the address `a`. -/
def pkgMalloc (a : Nat) (b : Block) : Option Proc :=
  if (p.heap a).isSome then none else some { p with heap := update p.heap a (some b) }

def pkgFree (a : Nat) : Option Proc :=
  if (p.heap a).isSome then some { p with heap := update p.heap a none } else none

/-- What a pointer to a `struct rtpp_notify` points to. -/
def notifyAt (a : Nat) : Option Notify :=
  match p.heap a with
  | some (.notify n) => some n
  | _ => none

/-- The memory at `a` is written. -/
def write (a : Nat) (n : Notify) : Proc := { p with heap := update p.heap a (some (.notify n)) }

def listAdd (a : Nat) : Option Proc :=
  if a ∈ p.fds then none else some { p with fds := a :: p.fds }

def listDel (a : Nat) : Option Proc :=
  if a ∈ p.fds then some { p with fds := p.fds.erase a } else none

/-- `reactor_proc_add_fd`, when it succeeds. -/
def addFd (fd a : Nat) : Option Proc :=
  if (p.sockets fd).isSome ∧ p.watched fd = none then
    some { p with watched := update p.watched fd (some a) }
  else none

/-- `reactor_proc_del_fd` -/
def delFd (fd : Nat) : Option Proc :=
  if (p.watched fd).isSome then some { p with watched := update p.watched fd none } else none

def close (fd : Nat) : Option Proc :=
  if (p.sockets fd).isSome then some { p with sockets := update p.sockets fd none } else none

/-- `if (notify->linked) list_del(&notify->list);` -/
def unlink (a : Nat) : Option Proc :=
  (p.notifyAt a).bind fun notify => if notify.linked then p.listDel a else some p

/-- `if (notify->remaining) pkg_free(notify->remaining);` -/
def freeRemaining (a : Nat) : Option Proc :=
  (p.notifyAt a).bind fun notify => match notify.remaining with
    | none => some p
    | some b => p.pkgFree b

/-- `free_rtpp_notify` -/
def freeRtppNotify (fd a : Nat) : Option Proc :=
  (p.delFd fd).bind fun p => (p.unlink a).bind fun p => (p.freeRemaining a).bind fun p =>
    (p.pkgFree a).bind fun p => p.close fd

/-- `list_add(&notify->list, &rtpp_notify_fds); notify->linked = 1;` -/
def link (a : Nat) : Option Proc :=
  (p.notifyAt a).bind fun notify => (p.listAdd a).map fun p => p.write a { notify with linked := true }

/-- The bytes that are kept with `notify`: reading past their memory is a fault. -/
def keeps (notify : Notify) : Option (List UInt8) :=
  match notify.remaining with
  | none => some []
  | some b => match p.heap b with
    | some (.bytes bs) =>
        if notify.remainingLen ≤ bs.length then some (bs.take notify.remainingLen) else none
    | _ => none

/-- What is kept for the connection whose block is at `a`. -/
def kept (a : Nat) : Option (List UInt8) := (p.notifyAt a).bind p.keeps

/-- The head of `rtpproxy_io_callback`, which the patch does not show: what has been kept is
taken into the buffer, and its memory is given back. -/
def restore (a : Nat) : Option (List UInt8 × Proc) :=
  (p.notifyAt a).bind fun notify => match notify.remaining with
    | none => some ([], p)
    | some b => (p.keeps notify).bind fun bs => (p.pkgFree b).map fun p =>
        (bs, p.write a { notify with remaining := none, remainingLen := 0 })

/-- `notify->remaining = pkg_malloc(offset)`, which has given the address `b`, and the copy. -/
def keep (a b : Nat) (bs : List UInt8) : Option Proc :=
  (p.notifyAt a).bind fun notify => (p.pkgMalloc b (.bytes bs)).map fun p =>
    p.write a { notify with remaining := some b, remainingLen := bs.length }

end Proc

/-- What the functions called by `rtpproxy_io_new_callback` return: whether
`set_nonblocking` works, where `pkg_malloc` finds memory, whether the node is
known, and whether the reactor takes the socket. -/
structure Taken where
  nonblocking : Bool
  memory : Option Nat
  node : Bool
  added : Bool
  deriving DecidableEq, Repr

namespace Proc

/-- `accept` -/
def accept (p : Proc) (fd : Nat) (conn : List UInt8 × List Answer) : Proc :=
  { p with
    sockets := update p.sockets fd (some p.conns.length)
    accepted := p.accepted ++ [conn]
    conns := p.conns ++ [.start conn.1 conn.2] }

/-- `rtpproxy_io_new_callback`; `un` is `rtpp_notify_socket_un`. -/
def newCallback (un : Bool) (p : Proc) (fd : Nat) (conn : List UInt8 × List Answer)
    (o : Taken) : Option Proc :=
  let p := p.accept fd conn
  if !o.nonblocking then p.close fd
  else match o.memory with
  | none => p.close fd
  | some a => (p.pkgMalloc a (.notify ⟨fd, none, 0, false⟩)).bind fun p =>
    if !un && !o.node then (p.pkgFree a).bind fun p => p.close fd
    else (if un then some p else p.link a).bind fun p =>
      if o.added then p.addFd fd a
      else (p.unlink a).bind fun p => (p.pkgFree a).bind fun p => p.close fd

/-- The connection `i` has gone on from `c` to `c'`. -/
def heard (p : Proc) (i : Nat) (c c' : Conn) : Proc :=
  { p with
    conns := p.conns.set i c'
    handled := p.handled ++ (c'.commands.drop c.commands.length).map fun command => (i, command) }

/-- The end of `rtpproxy_io_callback`, which has made `c'` of the connection. -/
def leave (p : Proc) (fd a kept : Nat) (c' : Conn) : Option Proc :=
  if c'.closed.isSome then p.freeRtppNotify fd a
  else if c'.remaining = [] then some p
  else p.keep a kept c'.remaining

/-- `rtpproxy_io_callback`, with what it has been watched with; `kept` is where
`pkg_malloc` finds memory, if it is asked. -/
def ioCallback (env : Env) (p : Proc) (fd kept : Nat) : Option Proc :=
  (p.watched fd).bind fun a => (p.restore a).bind fun r => (p.sockets fd).bind fun i =>
    p.conns[i]?.bind fun c =>
      let c' := rtpproxyIoCallback env { c with remaining := r.1 }
      (r.2.heard i c c').leave fd a kept c'

end Proc

/-! ## who holds the memory -/

/-- A block for each socket that is watched, and one for what is kept with it. -/
structure Owned (un : Bool) (heap : Nat → Option Block) (watched : Nat → Option Nat) : Prop where
  block : ∀ fd a, watched fd = some a → ∃ n, heap a = some (.notify n) ∧ n.fd = fd
  owner : ∀ a n, heap a = some (.notify n) → watched n.fd = some a ∧ n.linked = !un
  kept : ∀ a n b, heap a = some (.notify n) → n.remaining = some b →
    ∃ bs, heap b = some (.bytes bs) ∧ bs ≠ [] ∧ n.remainingLen = bs.length
  keeper : ∀ b bs, heap b = some (.bytes bs) →
    ∃ a n, heap a = some (.notify n) ∧ n.remaining = some b
  alone : ∀ a a' n n' b, heap a = some (.notify n) → heap a' = some (.notify n') →
    n.remaining = some b → n'.remaining = some b → a = a'

section Owned

variable {un : Bool} {heap heap' : Nat → Option Block} {watched : Nat → Option Nat}
variable {fd a b : Nat} {n m : Notify} {bs : List UInt8}

/-- What is found at `a'` once `x` has been put at `a`. -/
theorem update_eq_some {β : Type} {f : Nat → Option β} {a' : Nat} {x y : β}
    (h : update f a (some x) a' = some y) : a' = a ∧ y = x ∨ a' ≠ a ∧ f a' = some y := by
  by_cases ha : a' = a
  · subst ha
    rw [Function.update_self, Option.some.injEq] at h
    exact .inl ⟨rfl, h.symm⟩
  · rw [Function.update_of_ne ha] at h
    exact .inr ⟨ha, h⟩

/-- A block that is written. -/
theorem notify_update {a' : Nat} (h : update heap a (some (.notify n)) a' = some (.notify m)) :
    a' = a ∧ m = n ∨ a' ≠ a ∧ heap a' = some (.notify m) :=
  (update_eq_some h).imp_left fun ⟨ha, hm⟩ => ⟨ha, Block.notify.inj hm⟩

/-- The memory with `x` kept at `b` for the block at `a`, in place of what was kept there. -/
def rekeep (heap : Nat → Option Block) (a b : Nat) (n : Notify) (x : Option (List UInt8)) :
    Nat → Option Block :=
  update (update heap b (x.map .bytes)) a
    (some (.notify { n with remaining := x.map fun _ => b, remainingLen := (x.getD []).length }))

section Rekept

variable {a' : Nat} {x : Option (List UInt8)}

@[simp] theorem rekept_self : rekeep heap a b n x a =
    some (.notify { n with remaining := x.map fun _ => b, remainingLen := (x.getD []).length }) :=
  Function.update_self ..

theorem rekept_kept (hne : b ≠ a) : rekeep heap a b n x b = x.map .bytes := by
  rw [rekeep, Function.update_of_ne hne, Function.update_self]

theorem rekept_of_ne (hne : a' ≠ a) (hne' : a' ≠ b) : rekeep heap a b n x a' = heap a' := by
  rw [rekeep, Function.update_of_ne hne, Function.update_of_ne hne']

/-- A block is the one at `a`, or has not changed. -/
theorem notify_of_rekept (h : rekeep heap a b n x a' = some (.notify m)) :
    a' = a ∧ m = { n with remaining := x.map fun _ => b, remainingLen := (x.getD []).length } ∨
      a' ≠ a ∧ heap a' = some (.notify m) := by
  refine (notify_update h).imp_right fun ⟨hne, hm⟩ => ⟨hne, ?_⟩
  by_cases hb : a' = b
  · cases x <;> simp [hb] at hm
  · rwa [Function.update_of_ne hb] at hm

/-- What is kept elsewhere has not changed. -/
theorem bytes_of_rekept (h : rekeep heap a b n x a' = some (.bytes bs)) (hb : a' ≠ b) :
    heap a' = some (.bytes bs) := by
  have hne : a' ≠ a := by
    rintro rfl
    simp at h
  rwa [rekept_of_ne hne hb] at h

/-- The memory at `b` is taken for the block at `a`, or is given back, or has other
contents: no other block is to have kept anything there. -/
theorem Owned.rekept (h : Owned un heap watched) (ha : heap a = some (.notify n))
    (hb : ∀ m, heap b ≠ some (.notify m)) (hself : ∀ b' ∈ n.remaining, b' = b)
    (hothers : ∀ a' m, a' ≠ a → heap a' = some (.notify m) → m.remaining ≠ some b)
    (hx : x ≠ some []) : Owned un (rekeep heap a b n x) watched := by
  have hne : b ≠ a := fun heq => hb n (heq ▸ ha)
  have hold {a' : Nat} {m : Notify} (hm : heap a' = some (.notify m)) (hne : a' ≠ a) :
      rekeep heap a b n x a' = some (.notify m) := by
    exact (rekept_of_ne hne fun heq : a' = b => hb m (heq ▸ hm)).trans hm
  constructor
  · intro fd a' hw
    obtain ⟨m, hm, hfd⟩ := h.block fd a' hw
    by_cases ha' : a' = a
    · subst ha'
      rw [ha] at hm
      cases hm
      exact ⟨_, rekept_self, hfd⟩
    · exact ⟨m, hold hm ha', hfd⟩
  · intro a' m hm
    obtain ⟨rfl, rfl⟩ | ⟨-, hm⟩ := notify_of_rekept hm
    · exact h.owner a' n ha
    · exact h.owner a' m hm
  · intro a' m b' hm hb'
    obtain ⟨rfl, rfl⟩ | ⟨ha', hm⟩ := notify_of_rekept hm
    · obtain ⟨bs, rfl, rfl⟩ := Option.map_eq_some_iff.mp hb'
      exact ⟨bs, rekept_kept hne, by simpa using hx, rfl⟩
    · obtain ⟨bs, hbs, hsize⟩ := h.kept a' m b' hm hb'
      have hne' : b' ≠ a := ne_of_apply_ne heap (by simp [ha, hbs])
      have hother : b' ≠ b := fun heq => hothers a' m ha' hm (heq ▸ hb')
      exact ⟨bs, (rekept_of_ne hne' hother).trans hbs, hsize⟩
  · intro b' bs hbs
    by_cases hb' : b' = b
    · subst hb'
      rw [rekept_kept hne] at hbs
      obtain ⟨_, rfl, -⟩ := Option.map_eq_some_iff.mp hbs
      exact ⟨a, _, rekept_self, rfl⟩
    · obtain ⟨a', m, hm, hmb⟩ := h.keeper b' bs (bytes_of_rekept hbs hb')
      refine ⟨a', m, hold hm ?_, hmb⟩
      rintro rfl
      rw [ha] at hm
      cases hm
      exact hb' (hself b' hmb)
  · intro a₁ a₂ n₁ n₂ b' h₁ h₂ hb₁ hb₂
    have hat {a' b' : Nat} {m : Notify} (hne' : a' ≠ a) (hm : heap a' = some (.notify m)) (hmb : m.remaining = some b')
        (hb : (x.map fun _ => b) = some b') : False := by
      obtain ⟨_, -, rfl⟩ := Option.map_eq_some_iff.mp hb
      exact hothers a' m hne' hm hmb
    obtain ⟨rfl, rfl⟩ | ⟨hne₁, h₁'⟩ := notify_of_rekept h₁
    · obtain ⟨rfl, -⟩ | ⟨hne₂, h₂⟩ := notify_of_rekept h₂
      · rfl
      · exact (hat hne₂ h₂ hb₂ hb₁).elim
    · obtain ⟨rfl, rfl⟩ | ⟨-, h₂'⟩ := notify_of_rekept h₂
      · exact (hat hne₁ h₁' hb₁ hb₂).elim
      · exact h.alone a₁ a₂ n₁ n₂ b' h₁' h₂' hb₁ hb₂

end Rekept

/-- The block of a socket is given back. -/
theorem Owned.without (h : Owned un heap watched) (ha : heap a = some (.notify n))
    (hn : n.remaining = none) : Owned un (update heap a none) (update watched n.fd none) := by
  have hwatched := (h.owner a n ha).1
  have hcases {a' : Nat} {blk : Block} (hblk : update heap a none a' = some blk) :
      a' ≠ a ∧ heap a' = some blk := by
    by_cases ha' : a' = a
    · simp [ha'] at hblk
    · exact ⟨ha', by rwa [Function.update_of_ne ha'] at hblk⟩
  have hold {a' : Nat} {blk : Block} (hne : a' ≠ a) (hblk : heap a' = some blk) :
      update heap a none a' = some blk := by rwa [Function.update_of_ne hne]
  constructor
  · intro fd a' hw
    have hfd : fd ≠ n.fd := by
      rintro rfl
      simp at hw
    rw [Function.update_of_ne hfd] at hw
    obtain ⟨m, hm, rfl⟩ := h.block fd a' hw
    refine ⟨m, hold ?_ hm, rfl⟩
    rintro rfl
    rw [ha] at hm
    cases hm
    exact hfd rfl
  · intro a' m hm
    obtain ⟨hne, hm⟩ := hcases hm
    obtain ⟨hw, hlinked⟩ := h.owner a' m hm
    have hfd : m.fd ≠ n.fd := fun heq => by
      rw [heq, hwatched] at hw
      exact hne (Option.some.inj hw).symm
    exact ⟨by rwa [Function.update_of_ne hfd], hlinked⟩
  · intro a' m b hm hb
    obtain ⟨-, hm⟩ := hcases hm
    obtain ⟨bs, hbs, hsize⟩ := h.kept a' m b hm hb
    exact ⟨bs, hold (ne_of_apply_ne heap (by simp [ha, hbs])) hbs, hsize⟩
  · intro b bs hbs
    obtain ⟨-, hbs⟩ := hcases hbs
    obtain ⟨a', m, hm, hmb⟩ := h.keeper b bs hbs
    refine ⟨a', m, hold ?_ hm, hmb⟩
    rintro rfl
    rw [ha] at hm
    cases hm
    rw [hn] at hmb
    cases hmb
  · exact fun a₁ a₂ n₁ n₂ b h₁ h₂ => h.alone a₁ a₂ n₁ n₂ b (hcases h₁).2 (hcases h₂).2

/-- A socket gets a block. -/
theorem Owned.holding (h : Owned un heap watched) (ha : heap a = none) (hfd : watched fd = none) :
    Owned un (update heap a (some (.notify ⟨fd, none, 0, !un⟩))) (update watched fd (some a)) := by
  have hold {a' : Nat} {blk : Block} (hblk : heap a' = some blk) :
      update heap a (some (.notify ⟨fd, none, 0, !un⟩)) a' = some blk := by
    rwa [Function.update_of_ne (ne_of_apply_ne heap (by simp [ha, hblk]))]
  constructor
  · intro fd' a' hw
    by_cases hf : fd' = fd
    · subst hf
      rw [Function.update_self] at hw
      cases hw
      exact ⟨_, Function.update_self .., rfl⟩
    · rw [Function.update_of_ne hf] at hw
      obtain ⟨m, hm, hfd'⟩ := h.block fd' a' hw
      exact ⟨m, hold hm, hfd'⟩
  · intro a' m hm
    obtain ⟨rfl, rfl⟩ | ⟨-, hm⟩ := notify_update hm
    · exact ⟨Function.update_self .., rfl⟩
    · obtain ⟨hw, hlinked⟩ := h.owner a' m hm
      have hf : m.fd ≠ fd := fun heq => by
        rw [heq, hfd] at hw
        cases hw
      exact ⟨by rwa [Function.update_of_ne hf], hlinked⟩
  · intro a' m b hm hb
    obtain ⟨rfl, rfl⟩ | ⟨-, hm⟩ := notify_update hm
    · cases hb
    · obtain ⟨bs, hbs, hsize⟩ := h.kept a' m b hm hb
      exact ⟨bs, hold hbs, hsize⟩
  · intro b bs hbs
    have hne : b ≠ a := by
      rintro rfl
      simp at hbs
    rw [Function.update_of_ne hne] at hbs
    obtain ⟨a', m, hm, hmb⟩ := h.keeper b bs hbs
    exact ⟨a', m, hold hm, hmb⟩
  · intro a₁ a₂ n₁ n₂ b h₁ h₂ hb₁ hb₂
    obtain ⟨rfl, rfl⟩ | ⟨-, h₁⟩ := notify_update h₁
    · cases hb₁
    · obtain ⟨rfl, rfl⟩ | ⟨-, h₂⟩ := notify_update h₂
      · cases hb₂
      · exact h.alone a₁ a₂ n₁ n₂ b h₁ h₂ hb₁ hb₂

end Owned

/-! ## who holds what -/

/-- A socket is open while it is watched, and what it is watched with is its
memory, which is in the list if there is one. -/
structure Inv (un : Bool) (p : Proc) : Prop where
  watched : ∀ fd, (p.watched fd).isSome = (p.sockets fd).isSome
  owned : Owned un p.heap p.watched
  nodup : p.fds.Nodup
  linked : ∀ a, a ∈ p.fds ↔ un = false ∧ ∃ n, p.heap a = some (.notify n)

theorem inv_start (un : Bool) : Inv un .start where
  watched _ := rfl
  owned := ⟨nofun, nofun, nofun, nofun, nofun⟩
  nodup := List.nodup_nil
  linked _ := by simp [Proc.start]

section Steps

variable {un : Bool} {p p' : Proc} {fd a b : Nat} {n : Notify} {bs : List UInt8}

theorem Proc.notifyAt_eq (ha : p.heap a = some (.notify n)) : p.notifyAt a = some n := by
  rw [notifyAt, ha]

theorem Proc.kept_eq (ha : p.heap a = some (.notify n)) : p.kept a = p.keeps n := by
  rw [kept, notifyAt_eq ha, Option.bind_some]

/-- Nothing is kept. -/
theorem Proc.kept_of_none (ha : p.heap a = some (.notify n)) (hn : n.remaining = none) :
    p.kept a = some [] := by
  rw [kept_eq ha, keeps, hn]

/-- What is kept has been written as a whole. -/
theorem Proc.kept_of_some (ha : p.heap a = some (.notify n)) (hn : n.remaining = some b)
    (hb : p.heap b = some (.bytes bs)) (hlen : n.remainingLen = bs.length) :
    p.kept a = some bs := by
  simp [kept_eq ha, keeps, hn, hb, hlen]

/-- The block that a socket is watched with. -/
theorem Inv.block (h : Inv un p) (hfd : p.watched fd = some a) :
    ∃ n, p.heap a = some (.notify n) ∧ n.fd = fd ∧ n.linked = !un := by
  obtain ⟨n, hn, hf⟩ := h.owned.block fd a hfd
  exact ⟨n, hn, hf, (h.owned.owner a n hn).2⟩

/-- Two sockets do not share a block. -/
theorem Inv.fd_eq (h : Inv un p) {fd' : Nat} (hfd : p.watched fd = some a)
    (hfd' : p.watched fd' = some a) : fd = fd' := by
  obtain ⟨n, hn, rfl, -⟩ := h.block hfd
  obtain ⟨n', hn', rfl, -⟩ := h.block hfd'
  rw [hn] at hn'
  cases hn'
  rfl

/-- The connections but for one keep what they have kept. -/
def Proc.KeepsBut (p p' : Proc) (a : Nat) : Prop :=
  ∀ fd' a', p.watched fd' = some a' → a' ≠ a → p'.kept a' = p.kept a'

/-- Memory changes, but not what belongs to other connections. -/
theorem Inv.keepsBut (h : Inv un p)
    (hother : ∀ a' m, a' ≠ a → p.heap a' = some (.notify m) → p'.heap a' = p.heap a' ∧
      ∀ b' bs, m.remaining = some b' → p.heap b' = some (.bytes bs) → p'.heap b' = p.heap b') :
    p.KeepsBut p' a := by
  intro fd' a' hw hne
  obtain ⟨m, hm, -⟩ := h.block hw
  obtain ⟨hm', hb'⟩ := hother a' m hne hm
  cases hr : m.remaining with
  | none => rw [Proc.kept_of_none hm hr, Proc.kept_of_none (hm'.trans hm) hr]
  | some b' =>
      obtain ⟨bs, hbs, -, hlen⟩ := h.owned.kept a' m b' hm hr
      rw [Proc.kept_of_some hm hr hbs hlen,
        Proc.kept_of_some (hm'.trans hm) hr ((hb' b' bs hr hbs).trans hbs) hlen]

/-- What the block at `a` keeps is other than before: that is no matter of the others. -/
theorem Inv.rekept (h : Inv un p) {x : Option (List UInt8)} (ha : p.heap a = some (.notify n))
    (hb : ∀ m, p.heap b ≠ some (.notify m)) (hself : ∀ b' ∈ n.remaining, b' = b)
    (hothers : ∀ a' m, a' ≠ a → p.heap a' = some (.notify m) → m.remaining ≠ some b)
    (hx : x ≠ some []) : Inv un { p with heap := rekeep p.heap a b n x } ∧
      p.KeepsBut { p with heap := rekeep p.heap a b n x } a := by
  have hnotify (a' : Nat) (m : Notify) (hm : p.heap a' = some (.notify m)) : a' ≠ b :=
    fun heq => hb m (heq ▸ hm)
  refine ⟨⟨h.watched, h.owned.rekept ha hb hself hothers hx, h.nodup, fun a' => ?_⟩,
    h.keepsBut fun a' m hne hm => ⟨rekept_of_ne hne (hnotify a' m hm), fun b' bs hb' hbs => ?_⟩⟩
  · refine (h.linked a').trans (and_congr_right fun _ => ?_)
    by_cases ha' : a' = a
    · subst ha'
      exact ⟨fun _ => ⟨_, rekept_self⟩, fun _ => ⟨n, ha⟩⟩
    · refine exists_congr fun m => ⟨fun hm => ?_, fun hm => ?_⟩
      · exact (rekept_of_ne ha' (hnotify a' m hm)).trans hm
      · exact ((notify_of_rekept hm).resolve_left fun h => ha' h.1).2
  · have hother : b' ≠ b := fun heq => hothers a' m hne hm (heq ▸ hb')
    exact rekept_of_ne (ne_of_apply_ne p.heap (by simp [ha, hbs])) hother

/-- What is kept with a block is given back. -/
theorem Inv.unkept (h : Inv un p) (ha : p.heap a = some (.notify n)) (hr : n.remaining = some b) :
    Inv un { p with heap := rekeep p.heap a b n none } ∧
      p.KeepsBut { p with heap := rekeep p.heap a b n none } a := by
  obtain ⟨bs, hbs, -⟩ := h.owned.kept a n b ha hr
  refine h.rekept ha (by simp [hbs]) (by simp [hr]) (fun a' m hne hm hmb => ?_) (by simp)
  exact hne (h.owned.alone a' a m n b hm ha hmb hr)

/-- **The head of the callback**: what has been kept is in the buffer, and not kept any more. -/
theorem Inv.restore (h : Inv un p) (hfd : p.watched fd = some a) :
    ∃ bs heap n, p.restore a = some (bs, { p with heap := heap }) ∧ p.kept a = some bs ∧
      Inv un { p with heap := heap } ∧ heap a = some (.notify n) ∧ n.remaining = none ∧
      p.KeepsBut { p with heap := heap } a := by
  obtain ⟨n, ha, -⟩ := h.block hfd
  cases hr : n.remaining with
  | none =>
      refine ⟨[], p.heap, n, ?_, Proc.kept_of_none ha hr, h, ha, hr, fun _ _ _ _ => rfl⟩
      rw [Proc.restore, Proc.notifyAt_eq ha, Option.bind_some, hr]
  | some b =>
      obtain ⟨bs, hbs, -, hlen⟩ := h.owned.kept a n b ha hr
      have hkept := Proc.kept_of_some ha hr hbs hlen
      have hkeeps : p.keeps n = some bs := (Proc.kept_eq ha).symm.trans hkept
      obtain ⟨hinv, hothers⟩ := h.unkept ha hr
      refine ⟨bs, rekeep p.heap a b n none, _, ?_, hkept, hinv, rekept_self, rfl, hothers⟩
      simp [Proc.restore, Proc.notifyAt_eq ha, hr, hkeeps, Proc.pkgFree, hbs, Proc.write, rekeep]

/-- **The end of the callback**: an unfinished line is kept. -/
theorem Inv.keep (h : Inv un p) (ha : p.heap a = some (.notify n)) (hn : n.remaining = none)
    (hb : p.heap b = none) (hbs : bs ≠ []) :
    ∃ heap, p.keep a b bs = some { p with heap := heap } ∧ Inv un { p with heap := heap } ∧
      Proc.kept { p with heap := heap } a = some bs ∧ p.KeepsBut { p with heap := heap } a := by
  have hne : b ≠ a := ne_of_apply_ne p.heap (by simp [ha, hb])
  have hfresh (a' : Nat) (m : Notify) (hm : p.heap a' = some (.notify m)) : m.remaining ≠ some b :=
    fun hmb => by
      obtain ⟨bs', hbs', -⟩ := h.owned.kept a' m b hm hmb
      rw [hb] at hbs'
      cases hbs'
  obtain ⟨hinv, hothers⟩ := h.rekept (x := some bs) ha (by simp [hb]) (by simp [hn])
    (fun a' m _ hm => hfresh a' m hm) (by simpa using hbs)
  refine ⟨rekeep p.heap a b n (some bs), ?_, hinv, ?_, hothers⟩
  · simp [Proc.keep, Proc.notifyAt_eq ha, Proc.pkgMalloc, hb, Proc.write, rekeep]
  · exact Proc.kept_of_some rekept_self rfl (rekept_kept hne) rfl

/-- The process without the connection `fd`, whose memory is at `a`. -/
def Proc.without (p : Proc) (fd a : Nat) : Proc :=
  { p with
    heap := update p.heap a none
    fds := p.fds.erase a
    watched := update p.watched fd none
    sockets := update p.sockets fd none }

/-- **Giving up a connection** takes back all that it holds. -/
theorem Inv.freeRtppNotify (h : Inv un p) (hfd : p.watched fd = some a)
    (ha : p.heap a = some (.notify n)) (hn : n.remaining = none) :
    p.freeRtppNotify fd a = some (p.without fd a) := by
  have hsock : (p.sockets fd).isSome = true := by rw [← h.watched fd, hfd]; rfl
  have hlinked := (h.owned.owner a n ha).2
  have hlist := h.linked a
  cases un with
  | true =>
      have hnot : a ∉ p.fds := by simp [hlist]
      simp [Proc.freeRtppNotify, Proc.delFd, Proc.unlink, Proc.freeRemaining, Proc.notifyAt,
        Proc.pkgFree, Proc.close, Proc.without, hfd, ha, hn, hlinked, hsock,
        List.erase_of_not_mem hnot]
  | false =>
      have hmem : a ∈ p.fds := by simp [hlist, ha]
      simp [Proc.freeRtppNotify, Proc.delFd, Proc.unlink, Proc.freeRemaining, Proc.notifyAt,
        Proc.listDel, Proc.pkgFree, Proc.close, Proc.without, hfd, ha, hn, hlinked, hsock, hmem]

theorem Inv.without (h : Inv un p) (hfd : p.watched fd = some a)
    (ha : p.heap a = some (.notify n)) (hn : n.remaining = none) :
    Inv un (p.without fd a) ∧ p.KeepsBut (p.without fd a) a := by
  obtain ⟨n', ha', hfd', -⟩ := h.block hfd
  rw [ha] at ha'
  cases ha'
  refine ⟨⟨fun fd' => ?_, ?_, h.nodup.erase a, fun a' => ?_⟩, h.keepsBut fun a' m hne hm =>
    ⟨?_, fun b' bs _ hbs => ?_⟩⟩
  · by_cases hf : fd' = fd
    · simp [Proc.without, hf]
    · simpa [Proc.without, hf] using h.watched fd'
  · have howned := h.owned.without ha hn
    rwa [hfd'] at howned
  · by_cases ha' : a' = a
    · simp [Proc.without, ha', h.nodup.mem_erase_iff]
    · simpa [Proc.without, ha', h.nodup.mem_erase_iff] using h.linked a'
  · exact Function.update_of_ne hne _ _
  · exact Function.update_of_ne (ne_of_apply_ne p.heap (by simp [ha, hbs])) _ _

/-- What is kept goes with the block: it is as if it had been taken into the buffer before. -/
theorem Inv.freeRtppNotify_kept (h : Inv un p) (hfd : p.watched fd = some a)
    (ha : p.heap a = some (.notify n)) (hr : n.remaining = some b) :
    p.freeRtppNotify fd a = Proc.freeRtppNotify { p with heap := rekeep p.heap a b n none } fd a := by
  obtain ⟨bs, hbs, -⟩ := h.owned.kept a n b ha hr
  have hne : b ≠ a := ne_of_apply_ne p.heap (by simp [ha, hbs])
  cases hlinked : n.linked <;> by_cases hmem : a ∈ p.fds <;>
    simp [Proc.freeRtppNotify, Proc.delFd, Proc.unlink, Proc.freeRemaining, Proc.notifyAt,
      Proc.listDel, Proc.pkgFree, Proc.close, hfd, ha, hr, hlinked, hmem, hbs, hne.symm, rekeep]

/-- A connection is given up, whatever is kept for it: the others have what is left. -/
theorem Inv.givenUp (h : Inv un p) (hfd : p.watched fd = some a) :
    ∃ p', p.freeRtppNotify fd a = some p' ∧ Inv un p' ∧ p'.watched = update p.watched fd none := by
  obtain ⟨n, ha, -⟩ := h.block hfd
  cases hr : n.remaining with
  | none => exact ⟨_, h.freeRtppNotify hfd ha hr, (h.without hfd ha hr).1, rfl⟩
  | some b =>
      have hinv := (h.unkept ha hr).1
      refine ⟨_, ?_, (hinv.without hfd rekept_self rfl).1, rfl⟩
      rw [h.freeRtppNotify_kept hfd ha hr]
      exact hinv.freeRtppNotify hfd rekept_self rfl

/-- The process with the connection `fd`, whose memory is at `a`. -/
def Proc.holding (un : Bool) (p : Proc) (fd a : Nat) : Proc :=
  { p with
    heap := update p.heap a (some (.notify ⟨fd, none, 0, !un⟩))
    fds := if un then p.fds else a :: p.fds
    watched := update p.watched fd (some a) }

/-- A connection that is refused has been closed. -/
def Proc.refused (p : Proc) (fd : Nat) (conn : List UInt8 × List Answer) : Proc :=
  { p.accept fd conn with sockets := p.sockets }

/-- The reactor gets the connection in the end. -/
def Taken.suits (un : Bool) (o : Taken) : Bool := o.nonblocking && (un || o.node) && o.added

/-- What `rtpproxy_io_new_callback` comes to. -/
def Proc.taken (un : Bool) (p : Proc) (fd : Nat) (conn : List UInt8 × List Answer) (o : Taken) :
    Proc :=
  match o.memory with
  | none => p.refused fd conn
  | some a => if o.suits un then (p.accept fd conn).holding un fd a else p.refused fd conn

theorem Proc.close_accept (conn : List UInt8 × List Answer) (hfd : p.sockets fd = none) :
    (p.accept fd conn).close fd = some (p.refused fd conn) := by
  have hback : update p.sockets fd none = p.sockets := by rw [← hfd, Function.update_eq_self]
  simp [Proc.close, Proc.accept, Proc.refused, hback]

theorem Inv.watched_eq_none (h : Inv un p) (hfd : p.sockets fd = none) : p.watched fd = none := by
  have := h.watched fd
  rw [hfd] at this
  simpa using this

/-- **A new connection** is held, or all that has been taken for it is given back. -/
theorem Inv.newCallback (h : Inv un p) {conn : List UInt8 × List Answer} {o : Taken}
    (hfd : p.sockets fd = none) (hmem : ∀ a, o.memory = some a → p.heap a = none) :
    p.newCallback un fd conn o = some (p.taken un fd conn o) := by
  have hwatched := h.watched_eq_none hfd
  have hclose := Proc.close_accept conn hfd
  unfold Proc.newCallback Proc.taken Taken.suits
  cases hm : o.memory with
  | none => cases o.nonblocking <;> exact hclose
  | some a =>
      have hfree := hmem a hm
      have hnot : a ∉ p.fds := by simp [h.linked, hfree]
      have hback : update p.sockets fd none = p.sockets := by rw [← hfd, Function.update_eq_self]
      have hback' : update p.heap a none = p.heap := by rw [← hfree, Function.update_eq_self]
      cases o.nonblocking with
      | false => simpa using hclose
      | true =>
          cases un <;> cases o.node <;> cases o.added <;>
            simp [Proc.pkgMalloc, Proc.accept, Proc.pkgFree, Proc.close, Proc.link, Proc.listAdd,
              Proc.listDel, Proc.unlink, Proc.notifyAt, Proc.write, Proc.addFd, Proc.holding,
              Proc.refused, hfree, hnot, hback, hback', hwatched]

theorem Inv.refused (h : Inv un p) (fd : Nat) (conn : List UInt8 × List Answer) :
    Inv un (p.refused fd conn) := ⟨h.watched, h.owned, h.nodup, h.linked⟩

theorem Inv.holding (h : Inv un p) (conn : List UInt8 × List Answer) (hfd : p.sockets fd = none)
    (ha : p.heap a = none) : Inv un ((p.accept fd conn).holding un fd a) ∧
      p.KeepsBut ((p.accept fd conn).holding un fd a) a ∧
      ((p.accept fd conn).holding un fd a).kept a = some [] := by
  have hother {a' : Nat} {blk : Block} (hblk : p.heap a' = some blk) : a' ≠ a :=
    ne_of_apply_ne p.heap (by simp [ha, hblk])
  refine ⟨⟨fun fd' => ?_, h.owned.holding ha (h.watched_eq_none hfd), ?_, fun a' => ?_⟩,
    h.keepsBut fun a' m hne hm => ⟨?_, fun b' bs _ hbs => ?_⟩,
    Proc.kept_of_none (Function.update_self ..) rfl⟩
  · by_cases hf : fd' = fd
    · simp [Proc.accept, Proc.holding, hf]
    · simpa [Proc.accept, Proc.holding, hf] using h.watched fd'
  · cases un with
    | true => exact h.nodup
    | false => exact List.nodup_cons.mpr ⟨by simp [Proc.accept, h.linked, ha], h.nodup⟩
  · have hlinked := h.linked a'
    by_cases ha' : a' = a
    · subst ha'
      cases un <;> simp_all [Proc.accept, Proc.holding]
    · cases un <;> simpa [Proc.accept, Proc.holding, ha'] using hlinked
  · exact Function.update_of_ne hne _ _
  · exact Function.update_of_ne (hother hbs) _ _

end Steps

end VoipTests.NotificationProcess
