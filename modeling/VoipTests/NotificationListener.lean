import VoipTests.NotificationMemory
import VoipTests.Lib.Run

/-!
# VoipTests.NotificationListener

The process that listens for notifications: the reactor calls back for its
connections in any order.

Each callback is about one connection.  What it says of it is what the reader
makes of that connection alone (`Accounts`), and what it holds of it is in
order (`Sound`); so no run faults, nothing is left over (`listener_safe`), and
the connections do not disturb each other (`listener_lines`).
-/

namespace VoipTests.NotificationProcess

open Function (update)
open Run (exec Meets)

/-! ## the reactor -/

/-- What the reactor calls back for. -/
inductive Ev where
  /-- A new connection, for which the kernel has the number `fd`. -/
  | accept (fd : Nat) (conn : List UInt8 × List Answer) (o : Taken)
  | io (fd kept : Nat)
  deriving Repr

/-- The socket that is called back for. -/
def Ev.fd : Ev → Nat
  | .accept fd _ _ => fd
  | .io fd _ => fd

/-- One callback; `none` is a fault. -/
def listen (env : Env) (un : Bool) (p : Proc) : Ev → Option Proc
  | .accept fd conn o => p.newCallback un fd conn o
  | .io fd kept => p.ioCallback env fd kept

/-- What the kernel and the allocator see to, and the reactor: the numbers and
addresses they give are not in use, and nothing else is called back for than
what is watched. -/
def Enabled (p : Proc) : Ev → Prop
  | .accept fd _ o => p.sockets fd = none ∧ ∀ a ∈ o.memory, p.heap a = none
  | .io fd kept => (p.watched fd).isSome = true ∧
      ∀ a ∈ p.watched fd, ∀ r ∈ p.restore a, r.2.heap kept = none

instance (p : Proc) (e : Ev) : Decidable (Enabled p e) :=
  match e with
  | .accept fd _ o =>
      inferInstanceAs (Decidable (p.sockets fd = none ∧ ∀ a ∈ o.memory, p.heap a = none))
  | .io fd kept =>
      inferInstanceAs (Decidable ((p.watched fd).isSome = true ∧
        ∀ a ∈ p.watched fd, ∀ r ∈ p.restore a, r.2.heap kept = none))

/-! ## what the connections say -/

section Conns

variable {env : Env} {un : Bool} {p p' : Proc} {fd a i k : Nat} {c : Conn}

@[simp] theorem Conn.commands_keep (buffer : List UInt8) (offset : Nat) (c : Conn) :
    (c.keep env buffer offset).commands = c.commands := by
  unfold Conn.keep
  split
  · rfl
  · split <;> rfl

/-- The handler gets more and more. -/
theorem prefix_readLoop (buffer : List UInt8) (offset : Nat) (c : Conn) :
    c.commands <+: (readLoop env buffer offset c).commands := by
  induction hn : c.answers.length using Nat.strong_induction_on generalizing buffer offset c with
  | _ n ih =>
      rw [readLoop]
      split
      · exact List.prefix_refl _
      · have hread := (c.readRetry_spec (env.bufLen - offset)).commands
        split
        · next errno c' heq =>
          rw [heq] at hread
          split
          · rw [Conn.commands_keep]
            exact hread ▸ List.prefix_refl _
          · exact hread ▸ List.prefix_refl _
        · next c' heq =>
          rw [heq] at hread
          exact hread ▸ List.prefix_refl _
        · next bytes c' hne heq =>
          rw [heq] at hread
          have hshorter := Conn.length_answers_readRetry heq
          dsimp only
          split
          · rw [← hread]
            exact List.prefix_append _ _
          · refine List.IsPrefix.trans ?_ (ih _ (hn ▸ hshorter) _ _ _ rfl)
            rw [← hread]
            exact List.prefix_append _ _

theorem prefix_callback (c : Conn) : c.commands <+: (rtpproxyIoCallback env c).commands :=
  prefix_readLoop _ _ { c with remaining := [] }

/-- The last call of the reactor. -/
theorem reactor_succ (k : Nat) (c : Conn) : reactor env (k + 1) c =
    if (reactor env k c).closed.isSome then reactor env k c
    else rtpproxyIoCallback env (reactor env k c) := by
  induction k generalizing c with
  | zero => rfl
  | succ k ih =>
      rw [reactor]
      split
      · next hclosed =>
        rw [reactor_of_closed (Option.isSome_iff_ne_none.mp hclosed), if_pos hclosed]
      · next hclosed =>
        rw [ih, reactor, if_neg hclosed]

/-- What has become of each of the connections: it is what the reactor makes of
it alone, and the handler has had its commands. -/
structure Accounts (env : Env) (p : Proc) : Prop where
  opened : ∀ fd i, p.sockets fd = some i → ∃ c, p.conns[i]? = some c ∧ c.closed = none
  serial : ∀ fd fd' i, p.sockets fd = some i → p.sockets fd' = some i → fd = fd'
  length : p.accepted.length = p.conns.length
  alone : ∀ (i : Nat) (c : Conn), p.conns[i]? = some c →
    ∃ (conn : List UInt8 × List Answer) (k : Nat), p.accepted[i]? = some conn ∧
      c = reactor env k (.start conn.1 conn.2)
  handled : ∀ (i : Nat) (c : Conn), p.conns[i]? = some c →
    (p.handled.filter fun x => x.1 = i).map Prod.snd = c.commands
  known : ∀ x ∈ p.handled, x.1 < p.conns.length

theorem accounts_start (env : Env) : Accounts env .start where
  opened _ _ h := by cases h
  serial _ _ _ h := by cases h
  length := rfl
  alone _ _ h := by simp [Proc.start] at h
  handled _ _ h := by simp [Proc.start] at h
  known _ h := by cases h

/-- The memory, the list and what the reactor watches do not matter for it. -/
theorem Accounts.congr (h : Accounts env p) (hsockets : p'.sockets = p.sockets)
    (hconns : p'.conns = p.conns) (haccepted : p'.accepted = p.accepted)
    (hhandled : p'.handled = p.handled) : Accounts env p' where
  opened := hsockets ▸ hconns ▸ h.opened
  serial := hsockets ▸ h.serial
  length := haccepted ▸ hconns ▸ h.length
  alone := hconns ▸ haccepted ▸ h.alone
  handled := hconns ▸ hhandled ▸ h.handled
  known := hhandled ▸ hconns ▸ h.known

/-- A socket is that of a connection that has been accepted. -/
theorem Accounts.lt (h : Accounts env p) (hi : p.sockets fd = some i) : i < p.conns.length := by
  obtain ⟨c, hc, -⟩ := h.opened fd i hi
  exact (List.getElem?_eq_some_iff.mp hc).1

/-- The last element of a list, or one before it. -/
theorem getElem?_concat_eq_some {β : Type} {l : List β} {x y : β} (h : (l ++ [x])[i]? = some y) :
    l[i]? = some y ∨ i = l.length ∧ y = x := by
  rw [List.getElem?_append] at h
  split at h
  · exact .inl h
  · obtain ⟨hi, hx⟩ := List.getElem?_eq_some_iff.mp h
    rw [List.length_singleton] at hi
    refine .inr ⟨by omega, ?_⟩
    rw [← hx, List.getElem_singleton]

/-- A connection more, which has said nothing yet: `fd` is open for it, or it has been
closed again. -/
theorem Accounts.accept (h : Accounts env p) (conn : List UInt8 × List Answer)
    {sockets : Nat → Option Nat} (hsock : ∀ fd' i, sockets fd' = some i →
      p.sockets fd' = some i ∨ fd' = fd ∧ i = p.conns.length) :
    Accounts env { p.accept fd conn with sockets := sockets } := by
  have hold {i : Nat} (hi : i < p.conns.length) :
      (p.conns ++ [Conn.start conn.1 conn.2])[i]? = p.conns[i]? :=
    List.getElem?_append_left hi
  constructor
  · intro fd' i hi
    obtain hi | ⟨rfl, rfl⟩ := hsock fd' i hi
    · obtain ⟨c, hc, hclosed⟩ := h.opened fd' i hi
      exact ⟨c, (hold (h.lt hi)).trans hc, hclosed⟩
    · exact ⟨_, List.getElem?_concat_length .., rfl⟩
  · intro fd₁ fd₂ i h₁ h₂
    obtain hold₁ | ⟨hfd₁, hnew₁⟩ := hsock fd₁ i h₁ <;>
      obtain hold₂ | ⟨hfd₂, hnew₂⟩ := hsock fd₂ i h₂
    · exact h.serial fd₁ fd₂ i hold₁ hold₂
    · exact absurd (h.lt hold₁) (by omega)
    · exact absurd (h.lt hold₂) (by omega)
    · rw [hfd₁, hfd₂]
  · simp [Proc.accept, h.length]
  · intro i c hc
    obtain hc | ⟨rfl, rfl⟩ := getElem?_concat_eq_some hc
    · obtain ⟨conn', k, hconn, hk⟩ := h.alone i c hc
      refine ⟨conn', k, ?_, hk⟩
      rw [← hconn]
      exact List.getElem?_append_left (List.getElem?_eq_some_iff.mp hconn).1
    · exact ⟨conn, 0, h.length ▸ List.getElem?_concat_length .., rfl⟩
  · intro i c hc
    obtain hc | ⟨rfl, rfl⟩ := getElem?_concat_eq_some hc
    · exact h.handled i c hc
    · have hnone : (p.handled.filter fun x => x.1 = p.conns.length) = [] := by
        refine List.filter_eq_nil_iff.mpr fun x hx => ?_
        simpa using (h.known x hx).ne
      show (p.handled.filter _).map Prod.snd = _
      rw [hnone]
      rfl
  · intro x hx
    show x.1 < (p.conns ++ [Conn.start conn.1 conn.2]).length
    rw [List.length_append]
    exact Nat.lt_add_right _ (h.known x hx)

/-- What is said of `i` is not said of another one. -/
theorem map_snd_filter_map {β : Type} (i j : Nat) (l : List β) :
    ((l.map fun b => (i, b)).filter fun x => x.1 = j).map Prod.snd = if j = i then l else [] := by
  by_cases hji : j = i
  · simp [hji, List.filter_map, Function.comp_def]
  · simp [hji, Ne.symm hji, List.filter_map, Function.comp_def]

/-- A connection that goes on. -/
theorem Accounts.heard (h : Accounts env p) (hc : p.conns[i]? = some c) (hopen : c.closed = none)
    {sockets : Nat → Option Nat} (hsub : ∀ fd i, sockets fd = some i → p.sockets fd = some i)
    (hclosed : (rtpproxyIoCallback env c).closed.isSome = true → ∀ fd, sockets fd ≠ some i) :
    Accounts env { p.heard i c (rtpproxyIoCallback env c) with sockets := sockets } := by
  have hi : i < p.conns.length := (List.getElem?_eq_some_iff.mp hc).1
  have hset (j : Nat) (c₁ : Conn) (hj : (p.conns.set i (rtpproxyIoCallback env c))[j]? = some c₁) :
      j = i ∧ c₁ = rtpproxyIoCallback env c ∨ j ≠ i ∧ p.conns[j]? = some c₁ := by
    by_cases hji : j = i
    · subst hji
      rw [List.getElem?_set_self hi, Option.some.injEq] at hj
      exact .inl ⟨rfl, hj.symm⟩
    · rw [List.getElem?_set_ne (Ne.symm hji)] at hj
      exact .inr ⟨hji, hj⟩
  constructor
  · intro fd j hj
    by_cases hji : j = i
    · subst hji
      refine ⟨_, List.getElem?_set_self hi, ?_⟩
      by_contra hne
      exact hclosed (Option.isSome_iff_ne_none.mpr hne) fd hj
    · obtain ⟨c₁, hc₁, hopen₁⟩ := h.opened fd j (hsub fd j hj)
      exact ⟨c₁, (List.getElem?_set_ne (Ne.symm hji)).trans hc₁, hopen₁⟩
  · exact fun fd₁ fd₂ j h₁ h₂ => h.serial fd₁ fd₂ j (hsub fd₁ j h₁) (hsub fd₂ j h₂)
  · simp [Proc.heard, h.length]
  · intro j c₁ hj
    obtain ⟨rfl, rfl⟩ | ⟨-, hj⟩ := hset j c₁ hj
    · obtain ⟨conn, k, hconn, rfl⟩ := h.alone j c hc
      refine ⟨conn, k + 1, hconn, ?_⟩
      rw [reactor_succ, if_neg (by simp [hopen])]
    · exact h.alone j c₁ hj
  · intro j c₁ hj
    show ((p.heard i c (rtpproxyIoCallback env c)).handled.filter _).map Prod.snd = _
    rw [Proc.heard, List.filter_append, List.map_append, map_snd_filter_map]
    obtain ⟨rfl, rfl⟩ | ⟨hji, hj⟩ := hset j c₁ hj
    · rw [h.handled j c hc, if_pos rfl]
      exact List.prefix_iff_eq_append.mp (prefix_callback c)
    · rw [h.handled j c₁ hj, if_neg hji, List.append_nil]
  · intro x hx
    show x.1 < (p.conns.set i _).length
    rw [List.length_set]
    obtain hx | hx := List.mem_append.mp hx
    · exact h.known x hx
    · obtain ⟨command, -, rfl⟩ := List.mem_map.mp hx
      exact hi

/-! ## the runs -/

/-- What is kept for a connection is its unfinished line. -/
def Proc.Keeping (p : Proc) : Prop := ∀ fd a i c, p.watched fd = some a → p.sockets fd = some i →
  p.conns[i]? = some c → p.kept a = some c.remaining

/-- A process in order. -/
structure Sound (env : Env) (un : Bool) (p : Proc) : Prop where
  inv : Inv un p
  accounts : Accounts env p
  keeping : p.Keeping

theorem sound_start (env : Env) (un : Bool) : Sound env un .start :=
  ⟨inv_start un, accounts_start env, nofun⟩

theorem Sound.refused (h : Sound env un p) (fd : Nat) (conn : List UInt8 × List Answer) :
    Sound env un (p.refused fd conn) := by
  refine ⟨h.inv.refused fd conn, h.accounts.accept conn fun _ _ => .inl, fun fd' a i c hw hs hc => ?_⟩
  have hold : (p.conns ++ [Conn.start conn.1 conn.2])[i]? = p.conns[i]? :=
    List.getElem?_append_left (h.accounts.lt hs)
  exact h.keeping fd' a i c hw hs (hold.symm.trans hc)

theorem Sound.holding (h : Sound env un p) (conn : List UInt8 × List Answer)
    (hfd : p.sockets fd = none) (ha : p.heap a = none) :
    Sound env un ((p.accept fd conn).holding un fd a) := by
  obtain ⟨hinv, hothers, hself⟩ := h.inv.holding conn hfd ha
  have haccept := @Accounts.accept _ _ fd h.accounts conn (update p.sockets fd (some p.conns.length))
    fun _ _ hi => (update_eq_some hi).symm.imp_left And.right
  refine ⟨hinv, haccept.congr rfl rfl rfl rfl, fun fd' a' i c hw hs hc => ?_⟩
  by_cases hf : fd' = fd
  · subst hf
    have ha' : a = a' := by simpa [Proc.holding] using hw
    have hi : p.conns.length = i := by simpa [Proc.holding, Proc.accept] using hs
    have hstart : Conn.start conn.1 conn.2 = c := by
      simpa [Proc.holding, Proc.accept, ← hi] using hc
    rw [← ha', ← hstart]
    exact hself
  · have hw' : p.watched fd' = some a' := by simpa [Proc.holding, Proc.accept, hf] using hw
    have hs' : p.sockets fd' = some i := by simpa [Proc.holding, Proc.accept, hf] using hs
    have hold : (p.conns ++ [Conn.start conn.1 conn.2])[i]? = p.conns[i]? :=
      List.getElem?_append_left (h.accounts.lt hs')
    have hne : a' ≠ a := by
      rintro rfl
      obtain ⟨n, hn, -⟩ := h.inv.block hw'
      rw [ha] at hn
      cases hn
    rw [hothers fd' a' hw' hne]
    exact h.keeping fd' a' i c hw' hs' (hold.symm.trans hc)

/-- The process goes on in order, and only the socket `fd` is opened or closed. -/
def GoesOn (env : Env) (un : Bool) (fd : Nat) (p p' : Proc) : Prop :=
  Sound env un p' ∧ ∀ fd' ≠ fd, p'.sockets fd' = p.sockets fd'

theorem Sound.newCallback (h : Sound env un p) {conn : List UInt8 × List Answer} {o : Taken}
    (hfd : p.sockets fd = none) (hmem : ∀ a ∈ o.memory, p.heap a = none) :
    ∃ p', p.newCallback un fd conn o = some p' ∧ GoesOn env un fd p p' := by
  refine ⟨_, h.inv.newCallback hfd hmem, ?_⟩
  have hrefused : GoesOn env un fd p (p.refused fd conn) := ⟨h.refused fd conn, fun _ _ => rfl⟩
  unfold Proc.taken
  cases hm : o.memory with
  | none => exact hrefused
  | some a =>
      dsimp only
      split
      · exact ⟨h.holding conn hfd (hmem a hm), fun fd' hf => Function.update_of_ne hf _ _⟩
      · exact hrefused

/-- Nothing has happened to the other connections. -/
theorem Sound.keeping_of_others (h : Sound env un p) (hfd : p.watched fd = some a)
    (hi : p.sockets fd = some i) (hothers : p.KeepsBut p' a)
    (hwatched : ∀ fd' ≠ fd, p'.watched fd' = p.watched fd')
    (hsockets : ∀ fd' ≠ fd, p'.sockets fd' = p.sockets fd')
    (hconns : ∀ j ≠ i, p'.conns[j]? = p.conns[j]?)
    (hself : ∀ a' i' c, p'.watched fd = some a' → p'.sockets fd = some i' →
      p'.conns[i']? = some c → p'.kept a' = some c.remaining) : p'.Keeping := by
  intro fd' a' j c hw hs hc
  by_cases hf : fd' = fd
  · subst hf
    exact hself a' j c hw hs hc
  · rw [hwatched fd' hf] at hw
    rw [hsockets fd' hf] at hs
    have hj : j ≠ i := fun heq => hf (h.accounts.serial fd' fd i (heq ▸ hs) hi)
    have hne : a' ≠ a := fun heq => hf (h.inv.fd_eq (heq ▸ hw) hfd)
    rw [hconns j hj] at hc
    rw [hothers fd' a' hw hne]
    exact h.keeping fd' a' j c hw hs hc

/-- What has come in for a connection, once it is in the buffer. -/
theorem Sound.leave (h : Sound env un p) {kept : Nat} {heap : Nat → Option Block} {n : Notify}
    (hfd : p.watched fd = some a) (hi : p.sockets fd = some i) (hc : p.conns[i]? = some c)
    (hopen : c.closed = none) (hinv : Inv un { p with heap := heap })
    (hothers : p.KeepsBut { p with heap := heap } a) (hn : heap a = some (.notify n))
    (hnone : n.remaining = none) (hkept : heap kept = none) :
    ∃ p', (Proc.heard { p with heap := heap } i c (rtpproxyIoCallback env c)).leave fd a kept
      (rtpproxyIoCallback env c) = some p' ∧ GoesOn env un fd p p' := by
  let p₁ := Proc.heard { p with heap := heap } i c (rtpproxyIoCallback env c)
  have hinv₁ : Inv un p₁ := ⟨hinv.watched, hinv.owned, hinv.nodup, hinv.linked⟩
  have hlt : i < p.conns.length := (List.getElem?_eq_some_iff.mp hc).1
  have hconns (j : Nat) (hj : j ≠ i) : p₁.conns[j]? = p.conns[j]? := List.getElem?_set_ne hj.symm
  have hconn {a' i' : Nat} {c₁ : Conn} (hw : p.watched fd = some a') (hs : p.sockets fd = some i')
      (hc₁ : p₁.conns[i']? = some c₁) : a' = a ∧ c₁ = rtpproxyIoCallback env c := by
    rw [hfd, Option.some.injEq] at hw
    rw [hi, Option.some.injEq] at hs
    have hset : p₁.conns[i]? = some (rtpproxyIoCallback env c) := List.getElem?_set_self hlt
    rw [← hs, hset, Option.some.injEq] at hc₁
    exact ⟨hw.symm, hc₁.symm⟩
  unfold Proc.leave
  split
  · next hclosed =>
    obtain ⟨hwithout, hkeeps⟩ := hinv₁.without hfd hn hnone
    have hsub : ∀ fd' j, update p.sockets fd none fd' = some j → p.sockets fd' = some j := by
      intro fd' j hj
      by_cases hf : fd' = fd
      · simp [hf] at hj
      · simpa [hf] using hj
    have haccounts := h.accounts.heard hc hopen hsub fun _ fd' hj => by
      have hf := h.accounts.serial fd' fd i (hsub fd' i hj) hi
      simp [hf] at hj
    have hsockets (fd' : Nat) (hf : fd' ≠ fd) : (p₁.without fd a).sockets fd' = p.sockets fd' :=
      Function.update_of_ne hf _ _
    refine ⟨_, hinv₁.freeRtppNotify hfd hn hnone, ⟨hwithout, haccounts.congr rfl rfl rfl rfl,
      h.keeping_of_others hfd hi (fun fd' a' hw hne => ?_) (fun fd' hf => Function.update_of_ne hf _ _)
        hsockets hconns fun a' i' c₁ hw => ?_⟩, hsockets⟩
    · exact (hkeeps fd' a' hw hne).trans (hothers fd' a' hw hne)
    · simp [Proc.without] at hw
  · next hclosed =>
    have haccounts := h.accounts.heard hc hopen (fun _ _ hj => hj) fun h => absurd h hclosed
    split
    · next hnil =>
      refine ⟨p₁, rfl, ⟨hinv₁, haccounts.congr rfl rfl rfl rfl,
        h.keeping_of_others hfd hi hothers (fun _ _ => rfl) (fun _ _ => rfl) hconns
          fun a' i' c₁ hw hs hc₁ => ?_⟩, fun _ _ => rfl⟩
      obtain ⟨rfl, rfl⟩ := hconn hw hs hc₁
      rw [hnil]
      exact Proc.kept_of_none (p := p₁) hn hnone
    · next hne =>
      obtain ⟨heap', hkeep, hinv', hself, hothers'⟩ := hinv₁.keep hn hnone hkept hne
      refine ⟨_, hkeep, ⟨hinv', haccounts.congr rfl rfl rfl rfl,
        h.keeping_of_others hfd hi (fun fd' a' hw hne' => ?_) (fun _ _ => rfl) (fun _ _ => rfl) hconns
          fun a' i' c₁ hw hs hc₁ => ?_⟩, fun _ _ => rfl⟩
      · exact (hothers' fd' a' hw hne').trans (hothers fd' a' hw hne')
      · obtain ⟨rfl, rfl⟩ := hconn hw hs hc₁
        exact hself

theorem Sound.ioCallback (h : Sound env un p) {kept : Nat} (hfd : (p.watched fd).isSome = true)
    (hkept : ∀ a ∈ p.watched fd, ∀ r ∈ p.restore a, r.2.heap kept = none) :
    ∃ p', p.ioCallback env fd kept = some p' ∧ GoesOn env un fd p p' := by
  obtain ⟨a, ha⟩ := Option.isSome_iff_exists.mp hfd
  obtain ⟨i, hi⟩ := Option.isSome_iff_exists.mp (h.inv.watched fd ▸ hfd)
  obtain ⟨c, hc, hopen⟩ := h.accounts.opened fd i hi
  obtain ⟨bs, heap, n, hrestore, hbs, hinv, hn, hnone, hothers⟩ := h.inv.restore ha
  -- What has been kept is what the connection has left unfinished.
  rw [h.keeping fd a i c ha hi hc, Option.some.injEq] at hbs
  obtain ⟨p', hleave, hgoes⟩ :=
    h.leave ha hi hc hopen hinv hothers hn hnone (hkept a ha _ hrestore)
  refine ⟨p', ?_, hgoes⟩
  simp only [Proc.ioCallback, ha, hrestore, hi, hc, ← hbs, Option.bind_some]
  exact hleave

theorem Sound.listen (h : Sound env un p) {e : Ev} (he : Enabled p e) :
    ∃ p', listen env un p e = some p' ∧ GoesOn env un e.fd p p' := by
  cases e with
  | accept fd conn o => exact h.newCallback he.1 he.2
  | io fd kept => exact h.ioCallback he.1 he.2

/-- No run faults, and it is about the sockets only that are called back for. -/
theorem Sound.exec (h : Sound env un p) {es : List Ev}
    (he : Meets (NotificationProcess.listen env un) Enabled p es) :
    ∃ p', exec (NotificationProcess.listen env un) p es = some p' ∧ Sound env un p' ∧
      ∀ fd, fd ∉ es.map Ev.fd → p'.sockets fd = p.sockets fd := by
  induction es generalizing p with
  | nil => exact ⟨p, rfl, h, fun _ _ => rfl⟩
  | cons e es ih =>
      obtain ⟨p₁, h₁, hs₁, hsockets₁⟩ := h.listen he.1
      obtain ⟨p', hp', hs', hsockets'⟩ := ih hs₁ (he.2 p₁ h₁)
      rw [Run.exec_cons, h₁]
      refine ⟨p', hp', hs', fun fd hfd => ?_⟩
      rw [List.map_cons, List.mem_cons, not_or] at hfd
      exact (hsockets' fd hfd.2).trans (hsockets₁ fd hfd.1)

/-- **The listener holds what it uses, and no more**: no callback is a misuse,
whatever connections come, however they are read and in whatever order the
reactor calls back; the memory in use is that of the connections that are
open and of what is kept for them, which is their unfinished lines, and the list is of
them.  Whatever is kept for a connection, `free_rtpp_notify` takes all of it back. -/
theorem listener_safe {es : List Ev} (he : Meets (listen env un) Enabled .start es) :
    ∃ p, exec (listen env un) .start es = some p ∧ Inv un p ∧ p.Keeping ∧
      (∀ fd a, p.watched fd = some a → ∃ p', p.freeRtppNotify fd a = some p' ∧ Inv un p' ∧
        p'.watched = update p.watched fd none) ∧
      (∀ fd, fd ∉ es.map Ev.fd → p.sockets fd = none) ∧
      ((∀ fd, p.sockets fd = none) → (∀ a, p.heap a = none) ∧ p.fds = [] ∧
        ∀ fd, p.watched fd = none) := by
  obtain ⟨p, hp, hs, hsockets⟩ := (sound_start env un).exec he
  refine ⟨p, hp, hs.inv, hs.keeping, fun _ _ => hs.inv.givenUp, hsockets, fun hnone => ?_⟩
  have hwatched (fd : Nat) : p.watched fd = none := hs.inv.watched_eq_none (hnone fd)
  have hnotify (a : Nat) (n : Notify) : p.heap a ≠ some (.notify n) := fun ha => by
    have := (hs.inv.owned.owner a n ha).1
    rw [hwatched] at this
    cases this
  refine ⟨fun a => ?_, List.eq_nil_iff_forall_not_mem.mpr fun a ha => ?_, hwatched⟩
  · cases ha : p.heap a with
    | none => rfl
    | some blk =>
        cases blk with
        | notify n => exact (hnotify a n ha).elim
        | bytes bs =>
            obtain ⟨a', n, hn, -⟩ := hs.inv.owned.keeper a bs ha
            exact (hnotify a' n hn).elim
  · obtain ⟨-, n, hn⟩ := (hs.inv.linked a).mp ha
    exact hnotify a n hn

/-- What the handler has had of a connection. -/
def Proc.commands (p : Proc) (i : Nat) : List (List UInt8) :=
  (p.handled.filter fun x => x.1 = i).map Prod.snd

/-- A connection on its own. -/
theorem exists_delivered (hok : ∀ command, 0 ≤ env.notificationHandler command)
    (hmalloc : ∀ size, env.pkgMalloc size = true) (stream : List UInt8) (answers : List Answer)
    (k : Nat) : ∃ d, Delivered env stream answers d (reactor env k (.start stream answers)) := by
  have hstart : Framed env stream answers [] (.start stream answers) :=
    ⟨rfl, rfl, fun _ hline => absurd hline List.not_mem_nil,
      fun _ hk => absurd hk List.not_mem_nil, List.suffix_refl _⟩
  obtain ⟨d, hframed, hends, -⟩ := reactor_spec hok hmalloc k hstart ⟨rfl, env.bufLen_pos⟩
  exact ⟨d, hframed.delivered hends⟩

/-- **The connections do not disturb each other**: in every run of the listener,
the commands that the handler has had of a connection are the lines in what has
been read of it, before the first that does not fit into the buffer; and once it
has been closed they are those of its whole stream, unless a read has failed. -/
theorem listener_lines (hok : ∀ command, 0 ≤ env.notificationHandler command)
    (hmalloc : ∀ size, env.pkgMalloc size = true) {es : List Ev}
    (he : Meets (listen env un) Enabled .start es) :
    ∃ p, exec (listen env un) .start es = some p ∧ ∀ i stream answers c,
      p.accepted[i]? = some (stream, answers) → p.conns[i]? = some c →
      (∃ d, d ++ c.stream = stream ∧ p.commands i = Lines.upTo newline env.bufLen d) ∧
      ∀ why, c.closed = some why → why ≠ .readFailed →
        p.commands i = Lines.upTo newline env.bufLen stream := by
  obtain ⟨p, hp, hs, -⟩ := (sound_start env un).exec he
  refine ⟨p, hp, fun i stream answers c hconn hc => ?_⟩
  have hhandled : p.commands i = c.commands := hs.accounts.handled i c hc
  obtain ⟨conn, k, hconn', rfl⟩ := hs.accounts.alone i c hc
  rw [hconn, Option.some.injEq] at hconn'
  subst hconn'
  obtain ⟨d, hd⟩ := exists_delivered hok hmalloc stream answers k
  rw [hhandled]
  exact ⟨⟨d, hd.split, hd.commands⟩, fun why hclosed hread => (hd.whole hclosed hread).1⟩

end Conns

/-- Two connections.  Of the second one an unfinished line is kept twice, and the last
is dropped when the stream ends. -/
def twoConns : List Ev :=
  [.accept 7 ([97, 10], [.upTo 1, .err .eagain, .upTo 0]) ⟨true, some 100, true, true⟩,
    .accept 8 ([98, 10, 99], [.upTo 0, .err .eagain, .upTo 3, .err .eagain, .upTo 0])
      ⟨true, some 200, true, true⟩,
    .io 8 300, .io 7 400, .io 8 300, .io 7 400, .io 8 400]

theorem meets_twoConns : Meets (listen .four false) Enabled .start twoConns := by
  decide +kernel

/-- Nothing is left of them. -/
theorem listener_safe_two : ∃ p, exec (listen .four false) .start twoConns = some p ∧
    (∀ a, p.heap a = none) ∧ p.fds = [] ∧ ∀ fd, p.watched fd = none := by
  obtain ⟨p, hp, -, -, -, hothers, hnone⟩ := listener_safe meets_twoConns
  have hclosed : (exec (listen .four false) .start twoConns).map
      (fun p => (p.sockets 7, p.sockets 8)) = some (none, none) := by
    decide +kernel
  rw [hp, Option.map_some, Option.some.injEq, Prod.mk.injEq] at hclosed
  refine ⟨p, hp, hnone fun fd => ?_⟩
  by_cases h₇ : fd = 7
  · rw [h₇, hclosed.1]
  · by_cases h₈ : fd = 8
    · rw [h₈, hclosed.2]
    · exact hothers fd (by simp [twoConns, Ev.fd, h₇, h₈])

/-- The handler has had the line of each. -/
theorem listener_lines_two : ∃ p, exec (listen .four false) .start twoConns = some p ∧
    p.commands 0 = [[97]] ∧ p.commands 1 = [[98]] := by
  obtain ⟨p, hp, hlines⟩ := listener_lines (fun _ => Int.le_refl 0) (fun _ => rfl) meets_twoConns
  have hclosed : (exec (listen .four false) .start twoConns).map (fun p =>
      (p.accepted, p.conns.map Conn.closed)) = some
        ([([97, 10], [.upTo 1, .err .eagain, .upTo 0]),
          ([98, 10, 99], [.upTo 0, .err .eagain, .upTo 3, .err .eagain, .upTo 0])],
        [some .endOfFile, some .endOfFile]) := by
    decide +kernel
  rw [hp, Option.map_some, Option.some.injEq, Prod.mk.injEq] at hclosed
  have hwhole (i : Nat) (stream : List UInt8) (answers : List Answer)
      (hconn : p.accepted[i]? = some (stream, answers))
      (hc : (p.conns.map Conn.closed)[i]? = some (some .endOfFile)) :
      p.commands i = Lines.upTo newline 4 stream := by
    rw [List.getElem?_map] at hc
    obtain ⟨c, hci, hcc⟩ := Option.map_eq_some_iff.mp hc
    exact (hlines i stream answers c hconn hci).2 .endOfFile hcc (by decide)
  refine ⟨p, hp, ?_, ?_⟩
  · rw [hwhole 0 [97, 10] _ (by rw [hclosed.1]; rfl) (by rw [hclosed.2]; rfl)]
    decide +kernel
  · rw [hwhole 1 [98, 10, 99] _ (by rw [hclosed.1]; rfl) (by rw [hclosed.2]; rfl)]
    decide +kernel

end VoipTests.NotificationProcess
