import VoipTests.Switch.Opensips

/-!
# VoipTests.Switch.Authorize

The proxies under `UAS`, which have Alice authenticate.

A call that opens a dialog gets nothing from them until its credentials have been
checked and taken off the INVITE (`Gated`): no dialog, no session, and no way
to Bob.  Whatever comes within a dialog is not asked for any.
-/

namespace VoipTests.Switch

open Script (exit test act Only)

/-- The functions that deal with credentials. -/
def Cmd.authorizes : Cmd → Bool
  | .pvWwwAuthorize _ => true
  | .wwwAuthorize _ _ => true
  | .wwwChallenge _ _ _ => true
  | .consumeCredentials => true
  | _ => false

/-- The one that asks for them. -/
def Cmd.challenges : Cmd → Bool
  | .wwwChallenge _ _ _ => true
  | _ => false

/-- The functions that do something for a call. -/
def Cmd.serves : Cmd → Bool
  | .createDialog => true
  | .matchDialog => true
  | .recordRoute => true
  | .looseRoute => true
  | .rewritePort _ => true
  | .rtpproxyOffer _ => true
  | .rtpproxyUnforce => true
  | .tOnReply _ => true
  | .tOnFailure _ => true
  | .tRelay => true
  | _ => false

namespace Opensips

variable {cfg : Cfg} {req : Msg} {auth : Authorize} {l l' : List (Cmd × Int)}

@[simp] theorem serves_check (auth : Authorize) : (check auth).serves = false := by
  unfold check
  split <;> rfl

@[simp] theorem challenges_check (auth : Authorize) : (check auth).challenges = false := by
  unfold check
  split <;> rfl

@[simp] theorem authorizes_check (auth : Authorize) : (check auth).authorizes = true := by
  unfold check
  split <;> rfl

@[simp] theorem serves_wwwChallenge {realm qop algs : String} :
    (Cmd.wwwChallenge realm qop algs).serves = false := rfl

@[simp] theorem serves_consumeCredentials : Cmd.consumeCredentials.serves = false := rfl

@[simp] theorem challenges_consumeCredentials : Cmd.consumeCredentials.challenges = false := rfl

theorem challenges_eq_false {c : Cmd} (h : c.authorizes = false) : c.challenges = false := by
  cases c <;> first | rfl | cases h

/-! ## what a run shows of the credentials -/

/-- They have been checked, and taken off the request. -/
def Admitted (auth : Authorize) (l : List (Cmd × Int)) : Prop :=
  ∃ l₁ l₂ n k, l = l₁ ++ (check auth, n) :: (.consumeCredentials, k) :: l₂ ∧ 0 < n

/-- Nothing is done for the call before that, and they are asked for again when
they are wrong. -/
structure Gated (auth : Authorize) (l : List (Cmd × Int)) : Prop where
  served : ∀ l₁ c n l₂, l = l₁ ++ (c, n) :: l₂ → c.serves = true → Admitted auth l₁
  challenged : (∃ x ∈ l, x.1.challenges = true) ↔ ∃ n < 0, (check auth, n) ∈ l

theorem Admitted.append (h : Admitted auth l) (l' : List (Cmd × Int)) :
    Admitted auth (l ++ l') := by
  obtain ⟨l₁, l₂, n, k, rfl, hn⟩ := h
  exact ⟨l₁, l₂ ++ l', n, k, by simp, hn⟩

theorem Admitted.prepend (h : Admitted auth l) (l' : List (Cmd × Int)) :
    Admitted auth (l' ++ l) := by
  obtain ⟨l₁, l₂, n, k, rfl, hn⟩ := h
  exact ⟨l' ++ l₁, l₂, n, k, by simp, hn⟩

/-- A run in which nothing has been done for the call so far. -/
theorem gated_of_idle (hserves : ∀ x ∈ l, x.1.serves = false)
    (hchallenged : (∃ x ∈ l, x.1.challenges = true) ↔ ∃ n < 0, (check auth, n) ∈ l) :
    Gated auth l := by
  refine ⟨fun l₁ c n l₂ heq hc => ?_, hchallenged⟩
  have hno : c.serves = false := hserves (c, n) (by simp [heq])
  rw [hno] at hc
  cases hc

/-- Calls that have nothing to do with credentials do not change what was asked for. -/
theorem challenged_append (h : (∃ x ∈ l, x.1.challenges = true) ↔ ∃ n < 0, (check auth, n) ∈ l)
    (hauth : ∀ x ∈ l', x.1.authorizes = false) :
    ((∃ x ∈ l ++ l', x.1.challenges = true) ↔ ∃ n < 0, (check auth, n) ∈ l ++ l') ∧
      ((∃ x ∈ l' ++ l, x.1.challenges = true) ↔ ∃ n < 0, (check auth, n) ∈ l' ++ l) := by
  have hno : ¬ ∃ x ∈ l', x.1.challenges = true := by
    rintro ⟨x, hx, hc⟩
    simp [challenges_eq_false (hauth x hx)] at hc
  have hno' : ¬ ∃ n < 0, (check auth, n) ∈ l' := by
    rintro ⟨n, -, hmem⟩
    simpa using hauth _ hmem
  simp only [List.mem_append, or_and_right, and_or_left, exists_or, hno, hno', or_false, false_or]
  exact ⟨h, h⟩

theorem gated_nil : Gated auth [] := gated_of_idle (by simp) (by simp)

/-- What comes first has nothing to do with the credentials, or with the call. -/
theorem Gated.prepend (h : Gated auth l) (hserves : ∀ x ∈ l', x.1.serves = false)
    (hauth : ∀ x ∈ l', x.1.authorizes = false) : Gated auth (l' ++ l) := by
  refine ⟨fun l₁ c n l₂ heq hc => ?_, (challenged_append h.challenged hauth).2⟩
  obtain ⟨m, rfl, hm⟩ | ⟨m, rfl, hm⟩ := List.append_eq_append_iff.mp heq
  · exact (h.served m c n l₂ hm hc).prepend l'
  · cases m with
    | nil => exact (List.append_nil l₁).symm ▸ (h.served [] c n l₂ hm.symm hc).prepend l₁
    | cons x m =>
        obtain ⟨rfl, -⟩ := List.cons.inj hm
        have hno : c.serves = false := hserves (c, n) (by simp)
        simp [hno] at hc

/-- Once the credentials are right, the call may have anything. -/
theorem Gated.append (h : Gated auth l) (hl : Admitted auth l)
    (hauth : ∀ x ∈ l', x.1.authorizes = false) : Gated auth (l ++ l') := by
  refine ⟨fun l₁ c n l₂ heq hc => ?_, (challenged_append h.challenged hauth).1⟩
  obtain ⟨m, rfl, -⟩ | ⟨m, rfl, hm⟩ := List.append_eq_append_iff.mp heq
  · exact hl.append m
  · cases m with
    | nil => exact (List.append_nil l₁) ▸ hl
    | cons x m =>
        obtain ⟨rfl, -⟩ := List.cons.inj hm
        exact h.served l₁ c n m rfl hc

/-! ## the blocks -/

theorem checks_only : (checks cfg req).Only fun c => c.serves = false ∧ c.authorizes = false := by
  rw [Script.only_iff_wp]
  unfold checks
  cases cfg.maxLen with
  | none => simp [Cmd.serves, Cmd.authorizes]
  | some maxLen =>
      by_cases h : cfg.ver.before24 && maxLen ≤ req.len <;>
        simp [h, Cmd.serves, Cmd.authorizes]

theorem dialog_only : (dialog req).Only fun c => c.authorizes = false := by
  rw [Script.only_iff_wp]
  unfold dialog
  cases req.hasTotag <;> simp [Cmd.authorizes]

theorem offer_only : (offer cfg req).Only fun c => c.authorizes = false := by
  rw [Script.only_iff_wp]
  unfold offer
  cases req.hasTotag <;> cases cfg.onReInvite <;> simp [Cmd.authorizes]

theorem natContact_only : (natContact cfg req).Only fun c => c.authorizes = false := by
  rw [Script.only_iff_wp]
  unfold natContact
  split <;> by_cases h : cfg.ver = .master <;> simp [h, Cmd.authorizes]

theorem onward_only : (onward cfg req).Only fun c => c.authorizes = false := by
  rw [Script.only_iff_wp]
  unfold onward
  by_cases h : cfg.ver = .master <;> by_cases hsrc : req.srcPort = 5061 <;>
    simp [h, hsrc, Cmd.authorizes]

theorem forM_setAvp_only (avps : List (String × String)) :
    (avps.forM fun avp => Script.tell (Cmd.setAvp avp.1 avp.2)).Only
      fun c => c.serves = false ∧ c.authorizes = false := by
  induction avps with
  | nil => trivial
  | cons avp avps ih => exact Script.Only.bind ⟨⟨rfl, rfl⟩, fun _ => trivial⟩ fun _ => ih

/-- Wrong credentials, or none. -/
theorem gated_challenge {n : Int} (hn : n < 0) (k : Int) (realm qop algs : String) :
    Gated auth [(check auth, n), (.wwwChallenge realm qop algs, k)] :=
  gated_of_idle (by simp)
    (iff_of_true ⟨(.wwwChallenge realm qop algs, k), by simp, rfl⟩ ⟨n, hn, by simp⟩)

theorem gated_consume {n : Int} (hn : 0 < n) (k : Int) :
    Gated auth [(check auth, n), (.consumeCredentials, k)] := by
  have hne : check auth ≠ .consumeCredentials := by
    unfold check
    split <;> simp
  refine gated_of_idle (by simp) (iff_of_false (by simp) ?_)
  rintro ⟨m, hm, hmem⟩
  simp [hne] at hmem
  omega

/-- The part that looks at the credentials. -/
theorem check_wp : (do
      if !(← test (check auth)) then
        act (.wwwChallenge "VoIPTests.NET" "auth-int,auth" auth.challengeUsing)
        exit
      act .consumeCredentials : Script Cmd Unit).Wp (fun l x => l ++ [x])
    (fun l r => Gated auth l ∧ (r ≠ none → Admitted auth l)) [] := by
  refine Script.wp_bind.mpr (Script.wp_test.mpr ⟨?_, fun n hn => ?_, fun n hn => ?_⟩)
  · exact ⟨gated_of_idle (by simp) (by simp), fun hr => absurd rfl hr⟩
  · have hgated (k : Int) (realm qop algs : String) :
        Gated auth [(check auth, n), (.wwwChallenge realm qop algs, k)] :=
      gated_challenge hn k realm qop algs
    exact Script.wp_bind.mpr (Script.wp_act.mpr
      ⟨⟨hgated 0 _ _ _, fun hr => absurd rfl hr⟩,
        fun k _ => ⟨hgated k _ _ _, fun hr => absurd rfl hr⟩⟩)
  · refine Script.wp_act.mpr ⟨⟨gated_consume hn 0, fun hr => absurd rfl hr⟩, fun k _ => ?_⟩
    exact ⟨gated_consume hn k, fun _ => ⟨[], [], n, k, rfl, hn⟩⟩

/-- **The credentials**: the block comes to its end when they are right. -/
theorem gated_authorize {codes : List Int} {r : Option Unit}
    (h : (authorize auth).run codes = some (l, r)) :
    Gated auth l ∧ (r ≠ none → Admitted auth l) := by
  unfold authorize at h
  obtain ⟨hrun, rfl⟩ | ⟨_, codes₁, codes₂, l₁, l₂, h₁, h₂, rfl⟩ := Script.run_bind h
  · have honly := (forM_setAvp_only _).run hrun
    have hgated : Gated auth (l ++ []) :=
      gated_nil.prepend (fun x hx => (honly x hx).1) fun x hx => (honly x hx).2
    exact ⟨by simpa using hgated, fun hr => absurd rfl hr⟩
  · have honly := (forM_setAvp_only _).run h₁
    obtain ⟨hgated, hadmitted⟩ := check_wp.calls h₂
    exact ⟨hgated.prepend (fun x hx => (honly x hx).1) fun x hx => (honly x hx).2,
      fun hr => (hadmitted hr).prepend l₁⟩

/-! ## the route -/

/-- What is done with an INVITE once its credentials are right. -/
theorem gated_onInvite (hauth : cfg.authorize = some auth) (htag : req.hasTotag = false)
    {codes : List Int} {r : Option Unit} (h : (onInvite cfg req).run codes = some (l, r)) :
    Gated auth l ∧ (r ≠ none → Admitted auth l) := by
  have honly : (dialog req >>= fun _ => offer cfg req).Only fun c => c.authorizes = false :=
    dialog_only.bind fun _ => offer_only
  unfold onInvite at h
  simp only [hauth, htag] at h
  obtain ⟨hrun, rfl⟩ | ⟨_, codes₁, codes₂, l₁, l₂, h₁, h₂, rfl⟩ := Script.run_bind h
  · exact gated_authorize hrun
  · obtain ⟨hgated, hadmitted⟩ := gated_authorize h₁
    have hl₁ : Admitted auth l₁ := hadmitted (by simp)
    exact ⟨hgated.append hl₁ (honly.run h₂), fun _ => hl₁.append l₂⟩

theorem onInvite_only (h : cfg.authorize = none ∨ req.hasTotag = true) :
    (onInvite cfg req).Only fun c => c.authorizes = false := by
  have honly : (dialog req >>= fun _ => offer cfg req).Only fun c => c.authorizes = false :=
    dialog_only.bind fun _ => offer_only
  unfold onInvite
  cases hauth : cfg.authorize with
  | none => simpa using honly
  | some auth =>
      have htag : req.hasTotag = true := h.resolve_left (by simp [hauth])
      simpa [htag] using honly

/-- **Who has to authenticate**: nothing is done for an INVITE that opens a
dialog before its credentials have been found right and been taken off, and it is
challenged exactly when they are found wrong.  No other request is asked for any, and
none is where the scenario does not have Alice authenticate. -/
theorem route_authenticates {calls : List (Cmd × Int)} {codes : List Int} {r : Option Unit}
    (hr : (route cfg req).run codes = some (calls, r)) :
    (∀ auth, cfg.authorize = some auth → req.method = "INVITE" → req.hasTotag = false →
      Gated auth calls) ∧
    (cfg.authorize = none ∨ req.method ≠ "INVITE" ∨ req.hasTotag = true →
      ∀ x ∈ calls, x.1.authorizes = false) := by
  have hlast : (natContact cfg req >>= fun _ => onward cfg req).Only
      fun c => c.authorizes = false := natContact_only.bind fun _ => onward_only
  refine ⟨fun auth hauth hinv htag => ?_, fun hnone => ?_⟩
  · have hbye : req.method ≠ "BYE" := by simp [hinv]
    unfold route at hr
    obtain ⟨hrun, rfl⟩ | ⟨_, codes₁, codes₂, l₁, l₂, h₁, h₂, rfl⟩ := Script.run_bind hr
    · have honly := checks_only.run hrun
      have hgated : Gated auth (calls ++ []) :=
        gated_nil.prepend (fun x hx => (honly x hx).1) fun x hx => (honly x hx).2
      simpa using hgated
    · have honly := checks_only.run h₁
      refine Gated.prepend ?_ (fun x hx => (honly x hx).1) fun x hx => (honly x hx).2
      rw [if_pos hinv, if_neg hbye] at h₂
      obtain ⟨hrun, rfl⟩ | ⟨_, codes₃, codes₄, l₃, l₄, h₃, h₄, rfl⟩ := Script.run_bind h₂
      · exact (gated_onInvite hauth htag hrun).1
      · obtain ⟨hgated, hadmitted⟩ := gated_onInvite hauth htag h₃
        exact hgated.append (hadmitted (by simp)) (hlast.run h₄)
  · refine Script.Only.run (P := fun c => c.authorizes = false) ?_ hr
    unfold route
    refine (checks_only.mono fun _ h => h.2).bind fun _ => ?_
    by_cases hinv : req.method = "INVITE"
    · have hbye : req.method ≠ "BYE" := by simp [hinv]
      rw [if_pos hinv, if_neg hbye]
      refine Script.Only.bind ?_ fun _ => hlast
      obtain hauth | htag := hnone.imp_right fun h => h.resolve_left (not_not.mpr hinv)
      · exact onInvite_only (.inl hauth)
      · exact onInvite_only (.inr htag)
    · rw [if_neg hinv]
      by_cases hbye : req.method = "BYE"
      · rw [if_pos hbye]
        refine Script.Only.bind ?_ fun _ => hlast
        rw [Script.only_iff_wp]
        simp [Cmd.authorizes]
      · rw [if_neg hbye]
        exact hlast

/-- Alice calls without credentials, and with the right ones. -/
theorem route_authenticates_invite : ∃ auth calls calls',
    (uasAuth (.num 34)).authorize = some auth ∧
    (route (uasAuth (.num 34)) ⟨"INVITE", false, 5061, 512⟩).run [1, 1, 1, 1, -1, 1] =
      some (calls, none) ∧
    (route (uasAuth (.num 34)) ⟨"INVITE", false, 5061, 512⟩).run
      [1, 1, 1, 1, 1, 1, 1, 1, 1, 1, 1, 1, -1, -1, 1, 1] = some (calls', none) ∧
    Gated auth calls ∧ Gated auth calls' ∧ (.tRelay, 1) ∈ calls' := by
  have hr : (route (uasAuth (.num 34)) ⟨"INVITE", false, 5061, 512⟩).run [1, 1, 1, 1, -1, 1] =
    some (_, none) := rfl
  have hr' : (route (uasAuth (.num 34)) ⟨"INVITE", false, 5061, 512⟩).run
    [1, 1, 1, 1, 1, 1, 1, 1, 1, 1, 1, 1, -1, -1, 1, 1] = some (_, none) := rfl
  exact ⟨_, _, _, rfl, hr, hr', (route_authenticates hr).1 _ rfl rfl rfl,
    (route_authenticates hr').1 _ rfl rfl rfl, by decide⟩

end Opensips

end VoipTests.Switch
