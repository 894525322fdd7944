/-
Authorization over a directory in memory, some of whose calls may fail.
It only reads, so the directory stays as it was found (`authorize_asks`);
and of the directory it reads little: the user that the token names, that
user's memberships, and, for a system administrator alone, the
organization selected.

Whoever is let through is admitted by what that directory holds
(`admitted_of_authorize`): an active user; and, where the request is
bound, an active organization, the one that the selector spells, with the
user's own row in it unless a system administrator asks.
-/
import Tenancy.Proofs.Access.Isolation
import Tenancy.Proofs.Conduct
import Tenancy.Proofs.Policy.Guards

namespace Tenancy

open Http Program

namespace MemoryDirectory

variable {failures : DirectoryCall → Option DatabaseError}
  {call : DirectoryCall} {d d' : MemoryDirectory}

-- ========================================================== directory

/-- What is not asked to change does not change. -/
theorem answerFailing_of_read (h : call.isChange = false) :
    (answerFailing failures call d).2 = d := by
  unfold answerFailing
  cases failures call with
  | some e => rfl
  | none =>
    cases call with
    | setMemberRole | setOrganizationTier => cases h
    | _ => rfl

/-- A call that fails changes nothing. -/
theorem answerFailing_of_error {e : DatabaseError}
    (h : answerFailing failures call d = (.error e, d')) : d' = d := by
  unfold answerFailing at h
  cases hfailure : failures call with
  | some e' =>
    rw [hfailure] at h
    cases h
    rfl
  | none =>
    rw [hfailure] at h
    cases call <;> cases h

/-- A call that does not fail is answered as always. -/
theorem answer_of_answerFailing {a : call.Result}
    (h : answerFailing failures call d = (.ok a, d')) :
    answer call d = (.ok a, d') := by
  unfold answerFailing at h
  cases hfailure : failures call with
  | some e =>
    rw [hfailure] at h
    cases h
  | none =>
    rw [hfailure] at h
    exact h

/-- A user that is answered is in the directory, which is left as it was. -/
theorem user?_of_answer {id : Uuid} {found : Option User}
    (h : answerFailing failures (.findUser id) d = (.ok found, d')) :
    d.user? id = found ∧ d = d' := by
  have hanswer := answer_of_answerFailing h
  exact ⟨Except.ok.inj (congrArg Prod.fst hanswer), congrArg Prod.snd hanswer⟩

/-- And so are memberships. -/
theorem membershipsFor_of_answer {id : Uuid} {memberships : List Membership}
    (h : answerFailing failures (.membershipsFor id) d
      = (.ok memberships, d')) :
    d.membershipsFor id = memberships ∧ d = d' := by
  have hanswer := answer_of_answerFailing h
  exact ⟨Except.ok.inj (congrArg Prod.fst hanswer), congrArg Prod.snd hanswer⟩

/-- And so is an organization. -/
theorem activeOrganization?_of_answer {id : Uuid} {found : Option Organization}
    (h : answerFailing failures (.findOrganization id) d = (.ok found, d')) :
    d.activeOrganization? id = found ∧ d = d' := by
  have hanswer := answer_of_answerFailing h
  exact ⟨Except.ok.inj (congrArg Prod.fst hanswer), congrArg Prod.snd hanswer⟩

/-- A listed membership is a row of its user in an active organization. -/
theorem row_of_membership {userId : Uuid} {m : Membership}
    (h : m ∈ d.membershipsFor userId) :
    ∃ row ∈ d.memberships,
      row.userId = userId ∧ row.organizationId = m.organizationId
      ∧ row.role = m.role
      ∧ ∃ o,
        d.activeOrganization? m.organizationId = some o ∧ o.tier = m.tier := by
  obtain ⟨row, hrow, hside⟩ := List.mem_filterMap.1 h
  obtain ⟨hmem, huser⟩ := List.mem_filter.1 (List.mem_mergeSort.1 hrow)
  obtain ⟨o, ho, hm⟩ := Option.bind_eq_some_iff.1 hside
  cases hm
  have hid := id_of_activeOrganization? ho
  refine ⟨row, hmem, by simpa using huser, hid.symm, rfl, o, ?_, rfl⟩
  rw [← hid] at ho
  exact ho

end MemoryDirectory

namespace AccessProgram

variable {σ α : Type} {world : Program.World directoryInterface σ}
  {Allowed : σ → DirectoryCall → Prop} {Err : AccessError → σ → Prop} {s : σ}

/-- A call that is allowed abides, with its error as its own. -/
theorem abidesBy_ask {call : DirectoryCall} (hcall : Allowed s call)
    (herr : ∀ e s', world call s = (.error e, s') → Err (.directory e) s') :
    AbidesBy world Allowed Err (ask call).run s := by
  refine ⟨hcall, ?_⟩
  show AbidesBy world Allowed Err
      (.done ((world call s).1.mapError .directory)) (world call s).2
  cases hanswer : world call s with
  | mk answer s' =>
    cases answer with
    | ok a => exact trivial
    | error e => exact herr e s' hanswer

/-- What is required may be refused with its own reason. -/
theorem abidesBy_require {reason : Denial} {x : Option α}
    (h : Err (.denied reason) s) :
    AbidesBy world Allowed Err (require reason x).run s := by
  cases x with
  | none => exact h
  | some a => exact trivial

end AccessProgram

namespace Gate

open AccessProgram MemoryDirectory

section

variable (gate : Gate) (now : Int) (headers : Headers)

/-- The token of the request is good, and is this user's. -/
def Names (subject : Uuid) : Prop :=
  ∃ text claims,
    bearerToken? headers = some text ∧ gate.tokens.verify now text = .ok claims
    ∧ claims.subject = subject

/-- The active user of the directory who makes the request. -/
def ActsFor (d : MemoryDirectory) (user : User) : Prop :=
  gate.Names now headers user.id ∧ d.user? user.id = some user
    ∧ user.isActive = true

/-- What authorization asks of the directory. -/
def Asks (d : MemoryDirectory) : DirectoryCall → Prop
  | .findUser id => gate.Names now headers id
  | .membershipsFor id =>
    ∃ user, gate.ActsFor now headers d user ∧ user.id = id
  | .findOrganization _ =>
    ∃ user,
      gate.ActsFor now headers d user ∧ user.systemRole.isSuperAdmin = true
  | _ => False

end

variable {failures : DirectoryCall → Option DatabaseError} {gate : Gate}
  {now : Int}
  {headers : Headers} {query : Option String} {requirement : Requirement}
    {d d' : MemoryDirectory} {ctx : RequestContext} {caller : Caller}

/-- A gate asks for no change. -/
theorem isChange_of_asks {call : DirectoryCall}
    (h : gate.Asks now headers d call) : call.isChange = false := by
  cases call with
  | setMemberRole | setOrganizationTier => cases h
  | _ => rfl

/-- A program asks only this of a directory in memory, and leaves it as it
is. -/
def LooksUp (failures : DirectoryCall → Option DatabaseError)
    (Asked : DirectoryCall → Prop)
    (d : MemoryDirectory) {α : Type} (p : AccessProgram α) : Prop :=
  AbidesBy (answerFailing failures) (fun s call => s = d ∧ Asked call)
    (fun _ s => s = d) p.run d

section

variable {α β : Type} {p : AccessProgram α} {f : α → AccessProgram β}

/-- What only looks up leaves the directory as it was. -/
theorem LooksUp.leaves (h : LooksUp failures (gate.Asks now headers d) d p)
    {a : α} (hp : Succeeds (answerFailing failures) p d a d') : d' = d := by
  have hfinal := AbidesBy.final h (fun call s (hs : s = d) hcall => by
    rw [answerFailing_of_read (isChange_of_asks hcall.2)]
    exact hs) rfl
  unfold Succeeds at hp
  rw [hp] at hfinal
  exact hfinal

/-- One look is followed by another in the same directory. -/
theorem LooksUp.bind (hp : LooksUp failures (gate.Asks now headers d) d p)
    (hf : ∀ a, Succeeds (answerFailing failures) p d a d →
      LooksUp failures (gate.Asks now headers d) d (f a)) :
    LooksUp failures (gate.Asks now headers d) d (p >>= f) := by
  refine AbidesBy.bind hp fun a s' ha => ?_
  cases hp.leaves ha
  exact hf a ha

/-- A call that the gate may ask is a look. -/
theorem looksUp_ask {call : DirectoryCall}
    (hcall : gate.Asks now headers d call) :
    LooksUp failures (gate.Asks now headers d) d (ask call) :=
  abidesBy_ask ⟨rfl, hcall⟩ fun _ _ herror => answerFailing_of_error herror

/-- And what is required is none that could do harm. -/
theorem looksUp_require {reason : Denial} {x : Option α} :
    LooksUp failures (gate.Asks now headers d) d (require reason x) :=
  abidesBy_require rfl

end

theorem ok_of_toOption {ε α : Type} {x : Except ε α} {a : α}
    (h : x.toOption = some a) : x = .ok a := by
  cases x with
  | error e => cases h
  | ok b =>
    cases h
    rfl

/-- A token that is verified names its subject. -/
theorem names_of_verified {text : String} {claims : Claims}
    (htext : bearerToken? headers = some text)
    (hclaims : gate.tokens.verify now text = .ok claims) :
    gate.Names now headers claims.subject :=
  ⟨text, claims, htext, hclaims, rfl⟩

/-- A gate acts for an active user that a token names. -/
theorem actsFor_of_found {subject : Uuid} {user : User}
    (hnames : gate.Names now headers subject)
    (hfound : d.user? subject = some user) (hactive : user.isActive = true) :
    gate.ActsFor now headers d user := by
  have hid : user.id = subject := by simpa using List.find?_some hfound
  rw [← hid] at hnames hfound
  exact ⟨hnames, hfound, hactive⟩

/-- The caller is the active user who makes the request, with the memberships
that the directory holds. -/
theorem actsFor_of_identify
    (h : Succeeds (answerFailing failures)
      (gate.identify now (bearerToken? headers)) d caller d') :
    d = d' ∧ ∃ user, gate.ActsFor now headers d user
      ∧ caller = .ofUser user (d.membershipsFor user.id) := by
  obtain ⟨text, claims, user, memberships, d₁, htext, hclaims, hfound, hactive,
      hlisted, rfl⟩ :=
    succeeds_identify.1 h
  obtain ⟨huser, rfl⟩ := user?_of_answer hfound
  obtain ⟨rfl, rfl⟩ := membershipsFor_of_answer hlisted
  exact ⟨rfl, user,
    actsFor_of_found (names_of_verified htext hclaims) huser hactive, rfl⟩

-- ================================================================ asked

/-- Who calls is looked up by the subject of a token. -/
theorem identify_asks :
    LooksUp failures (gate.Asks now headers d) d
      (gate.identify now (bearerToken? headers)) := by
  refine looksUp_require.bind fun text htext => looksUp_require.bind
    fun claims hclaims => ?_
  have hnames := names_of_verified (succeeds_require.1 htext).1
    (ok_of_toOption (succeeds_require.1 hclaims).1)
  have hask : gate.Asks now headers d (.findUser claims.subject) := hnames
  refine (looksUp_ask hask).bind fun found hfound => looksUp_require.bind
    fun user huser => ?_
  obtain ⟨hfound, -⟩ := user?_of_answer (succeeds_ask.1 hfound)
  obtain ⟨hsome, hactive⟩ :=
    Option.filter_eq_some_iff.1 (succeeds_require.1 huser).1
  have hacts := actsFor_of_found hnames (hfound.trans hsome) hactive
  have hask : gate.Asks now headers d (.membershipsFor user.id) :=
    ⟨user, hacts, rfl⟩
  exact (looksUp_ask hask).bind fun memberships _ => abidesBy_pure

/-- Only for a system administrator is the organization looked up. -/
theorem enter_asks {user : User} {selector : String}
    (hacts : gate.ActsFor now headers d user)
    (hcaller : caller.systemRole = user.systemRole) :
    LooksUp failures (gate.Asks now headers d) d (enter caller selector) := by
  refine looksUp_require.bind
    fun id _ => AbidesBy.ite (fun hadmin => ?_) (fun _ => ?_)
  · have hask : gate.Asks now headers d (.findOrganization id) :=
      ⟨user, hacts, by rw [← hcaller]; exact hadmin⟩
    exact (looksUp_ask hask).bind fun found _ =>
      looksUp_require.bind fun _ _ => abidesBy_pure
  · exact looksUp_require.bind fun _ _ => abidesBy_pure

/-- What the caller has selected is looked up for that caller. -/
theorem bind_asks {user : User} {selector : Option String}
    (hacts : gate.ActsFor now headers d user)
    (hcaller : caller.systemRole = user.systemRole) :
    LooksUp failures (gate.Asks now headers d) d
      (Gate.bind caller selector) := by
  cases selector with
  | some text => exact (enter_asks hacts hcaller).bind fun _ _ => abidesBy_pure
  | none =>
    exact AbidesBy.ite (fun _ => abidesBy_pure) (fun _ => abidesBy_throw rfl)

/-- What authorization asks of a directory in memory, and that it leaves it as
it is. -/
theorem authorize_asks :
    LooksUp failures (gate.Asks now headers d) d
      (gate.authorize now requirement headers query) := by
  refine identify_asks.bind fun caller hcaller => ?_
  obtain ⟨-, user, hacts, rfl⟩ := actsFor_of_identify hcaller
  refine AbidesBy.ite
    (fun _ => (bind_asks hacts rfl).bind fun organization _ => ?_)
    (fun _ => LooksUp.bind abidesBy_pure fun organization _ => ?_)
  -- With an organization or without, the rest is the judgement of the guard.
  all_goals
    dsimp only
    split
    · exact abidesBy_pure
    · exact abidesBy_throw rfl

-- ============================================================ admitted

/-- What a directory holds when it lets a request through: the user who makes
it, with memberships and all; and the active organization that it
selects, which a regular user has a row in, with the role of that row. -/
structure Admits (gate : Gate) (now : Int) (requirement : Requirement)
    (headers : Headers)
    (query : Option String) (d : MemoryDirectory) (ctx : RequestContext)
    (user : User) : Prop where
  acts : gate.ActsFor now headers d user
  caller : ctx.caller = .ofUser user (d.membershipsFor user.id)
  bound : ∀ bound, ctx.organization = some bound →
    ∃ text o,
      organizationSelector? gate.organizationHeader headers query = some text
      ∧ Uuid.ofString? text = some bound.organizationId
      ∧ d.activeOrganization? bound.organizationId = some o
      ∧ o.tier = bound.tier
      ∧ (user.systemRole.isSuperAdmin = true ∨ ∃ row ∈ d.memberships,
        row.userId = user.id
          ∧ row.organizationId = bound.organizationId
          ∧ bound.role = some row.role)
  passes : Guard.evaluate ctx requirement = .ok ()

/-- Only system administrators are admitted to what is for them. -/
theorem Admits.isSuperAdmin {user : User}
    (h : gate.Admits now (.within .adminOnly) headers query d ctx user) :
    user.systemRole.isSuperAdmin = true := by
  have hscope :=
    (Guard.checkScope_eq_ok.1 (Guard.evaluate_eq_ok.1 h.passes).1).1 rfl
  rw [h.caller] at hscope
  exact hscope

/-- An organization that is entered is the active one that is selected. -/
theorem bound_of_enter {user : User} {selector : String}
    {bound : OrganizationContext} (h : Succeeds (answerFailing failures)
      (enter (.ofUser user (d.membershipsFor user.id)) selector) d bound d') :
    d = d' ∧ ∃ o, Uuid.ofString? selector = some bound.organizationId
      ∧ d.activeOrganization? bound.organizationId = some o
      ∧ o.tier = bound.tier
      ∧ (user.systemRole.isSuperAdmin = true ∨ ∃ row ∈ d.memberships,
        row.userId = user.id
          ∧ row.organizationId = bound.organizationId
          ∧ bound.role = some row.role) := by
  obtain ⟨id, hid, ⟨hadmin, o, ho, rfl⟩ | ⟨-, rfl, m, hm, rfl⟩⟩ :=
    succeeds_enter.1 h
  · obtain ⟨hactive, rfl⟩ := activeOrganization?_of_answer ho
    have hsame : o.id = id := id_of_activeOrganization? hactive
    rw [← hsame] at hid hactive
    exact ⟨rfl, o, hid, hactive, rfl, .inl hadmin⟩
  · have hsame : m.organizationId = id := by simpa using List.find?_some hm
    obtain ⟨row, hrow, huser, horganization, hrole, o, ho, htier⟩ :=
      row_of_membership (List.mem_of_find?_eq_some hm)
    rw [← hsame] at hid
    refine ⟨rfl, o, hid, ho, htier, .inr ⟨row, hrow, huser, horganization, ?_⟩⟩
    show some m.role = _
    rw [hrole]

/-- Whoever is let through is admitted by what the directory holds. -/
theorem admitted_of_authorize (h : Succeeds (answerFailing failures)
      (gate.authorize now requirement headers query) d ctx d') :
    d = d' ∧ ∃ user, gate.Admits now requirement headers query d ctx user := by
  obtain ⟨d₁, hcaller, hbound, hpasses⟩ := succeeds_authorize.1 h
  obtain ⟨rfl, user, hacts, hctx⟩ := actsFor_of_identify hcaller
  have hunbound :
      ctx.organization = none →
        gate.Admits now requirement headers query d ctx user :=
    fun hnone =>
      ⟨hacts, hctx, fun bound hbound => absurd (hnone.symm.trans hbound) nofun,
        hpasses⟩
  rcases hbound with ⟨-, hbound⟩ | ⟨-, -, hnone, rfl⟩
  · rw [hctx] at hbound
    rcases succeeds_bind_organization.1 hbound with
      ⟨text, entered, htext, hentered, henter⟩ | ⟨-, -, hnone, rfl⟩
    · obtain ⟨rfl, o, hid, ho, htier, hrow⟩ := bound_of_enter henter
      refine ⟨rfl, user, hacts, hctx, fun bound hbound => ?_, hpasses⟩
      cases hentered.symm.trans hbound
      exact ⟨text, o, htext, hid, ho, htier, hrow⟩
    · exact ⟨rfl, user, hunbound hnone⟩
  · exact ⟨rfl, user, hunbound hnone⟩

end Gate

end Tenancy
