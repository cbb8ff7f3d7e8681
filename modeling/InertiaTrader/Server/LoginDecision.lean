import InertiaTrader.Server.Login

/-!
# The decision about a login

`loginMsgHandle` looks a user up with `find` and reads the password without asking
whether `find` has found one, or whether the message has the fields.
-/

namespace InertiaTrader

/-- A login is decided by the list of users alone: a match logs in, anything else
changes nothing and sends nothing. -/
def DecidedByList (draws : ℕ × ℕ) (added : Bool) (msg : Text) (userList : Accounts)
    (cn : Connection) : Prop :=
  ∃ cn' sent, loginMsgHandle draws added msg userList cn = .ok (userList, cn', sent) ∧
    ((∃ user, LogsIn userList msg user ∧
        cn' = { cn with loginFlag := true, username := user }) ∨
      (∀ user, ¬ LogsIn userList msg user) ∧ cn' = cn ∧ sent = [])

/-- The message names a user of the list and gives some password. -/
def NamesUser (userList : Accounts) (msg : Text) : Prop :=
  ∃ user account password, (split msg "|".toList)[1]? = some user ∧
    userList.lookup user = some account ∧ (split msg "|".toList)[2]? = some password

section

variable {draws : ℕ × ℕ} {added : Bool} {msg : Text} {userList : Accounts} {cn : Connection}

theorem loginMsgHandle_login (code : msg.take 4 = "1234".toList) :
    loginMsgHandle draws added msg userList cn =
      (loginUser draws (split msg "|".toList) userList cn).map fun (cn, sent) =>
        (userList, cn, sent) := by
  simp only [loginMsgHandle, code, if_true]
  cases loginUser draws (split msg "|".toList) userList cn with
  | error fault => rfl
  | ok result => rfl

theorem loginUser_ok_iff (nonempty : userList ≠ []) :
    (∃ result, loginUser draws (split msg "|".toList) userList cn = .ok result) ↔
      NamesUser userList msg := by
  rw [loginUser, if_neg nonempty]
  simp only [exists_bind_eq_ok_iff, field_eq_ok_iff]
  constructor
  · rintro ⟨user, nameField, finished⟩
    split at finished
    next =>
      obtain ⟨result, fault⟩ := finished
      cases fault
    next account known =>
      obtain ⟨password, passwordField, -⟩ := exists_bind_eq_ok_iff.mp finished
      exact ⟨user, account, password, nameField, known, field_eq_ok_iff.mp passwordField⟩
  · rintro ⟨user, account, password, nameField, known, passwordField⟩
    refine ⟨user, nameField, ?_⟩
    simp only [known, field, passwordField, bind, Except.bind]
    split <;> exact ⟨_, rfl⟩

/-- What `loginMsgHandle` needs of a login message. -/
def KnownLogin (userList : Accounts) (msg : Text) : Prop :=
  msg.take 4 = "1234".toList → userList = [] ∨ NamesUser userList msg

theorem exists_loginUser_iff :
    (∃ result, loginUser draws (split msg "|".toList) userList cn = .ok result) ↔
      userList = [] ∨ NamesUser userList msg := by
  by_cases empty : userList = []
  · refine iff_of_true ⟨(cn, []), ?_⟩ (.inl empty)
    rw [loginUser, if_pos empty]
    rfl
  · rw [loginUser_ok_iff empty]
    exact (or_iff_right empty).symm

theorem strayLogin_of_known (known : KnownLogin userList msg) (letIn : Option Text) :
    strayLogin draws letIn msg userList cn = none := by
  unfold strayLogin
  split
  next code =>
    obtain ⟨result, answered⟩ := exists_loginUser_iff.mpr (known code)
    rw [answered]
  next => rfl

theorem strayLogin_of_unknown (unknown : ¬ KnownLogin userList msg) (username : Text) :
    strayLogin draws (some username) msg userList cn =
      some ({ cn with loginFlag := true, username },
        [numbered "login|".toList draws.1, numbered "1234|".toList draws.2]) := by
  rw [KnownLogin, Classical.not_imp] at unknown
  obtain ⟨code, unknown⟩ := unknown
  cases answered : loginUser draws (split msg "|".toList) userList cn with
  | error fault => simp only [strayLogin, if_pos code, answered]
  | ok result => exact absurd (exists_loginUser_iff.mp ⟨result, answered⟩) unknown

theorem unanswered_of_nobody {cn' : Connection} {sent : List Text}
    (code : msg.take 4 = "1234".toList) (nobody : ∀ user, ¬ LogsIn userList msg user)
    (answered : loginUser draws (split msg "|".toList) userList cn = .ok (cn', sent)) :
    sent = [] := by
  unfold loginUser at answered
  split at answered
  next =>
    cases answered
    rfl
  next =>
    obtain ⟨user, nameField, answered⟩ := bind_eq_ok_iff.mp answered
    split at answered
    next => cases answered
    next account known =>
      obtain ⟨password, passwordField, answered⟩ := bind_eq_ok_iff.mp answered
      split at answered
      next same =>
        refine absurd ?_ (nobody user)
        exact ⟨code, field_eq_ok_iff.mp nameField, account, known,
          same ▸ field_eq_ok_iff.mp passwordField⟩
      next =>
        cases answered
        rfl

theorem decidedByList_iff (code : msg.take 4 = "1234".toList) :
    DecidedByList draws added msg userList cn ↔
      ∃ result, loginUser draws (split msg "|".toList) userList cn = .ok result := by
  unfold DecidedByList
  rw [loginMsgHandle_login code]
  constructor
  · rintro ⟨cn', sent, finished, -⟩
    cases answered : loginUser draws (split msg "|".toList) userList cn with
    | error fault =>
        rw [answered] at finished
        cases finished
    | ok result => exact ⟨result, rfl⟩
  · rintro ⟨⟨cn', sent⟩, answered⟩
    refine ⟨cn', sent, by rw [answered]; rfl, ?_⟩
    rcases loginUser_cases code answered with loggedIn | ⟨nobody, unchanged⟩
    · exact .inl loggedIn
    · exact .inr ⟨nobody, unchanged, unanswered_of_nobody code nobody answered⟩

end

/-- A login is decided by the list exactly when the list is empty, or the message
names a user of it and gives a password. -/
theorem login_decided_iff (draws : ℕ × ℕ) (added : Bool) (msg : Text) (userList : Accounts)
    (cn : Connection) (code : msg.take 4 = "1234".toList) :
    DecidedByList draws added msg userList cn ↔ userList = [] ∨ NamesUser userList msg := by
  rw [decidedByList_iff code]
  exact exists_loginUser_iff

/-- A user that nobody knows asks to be let in. -/
def strangerLogin : Text := "1234|00878|123|".toList

theorem stranger_not_decided :
    strangerLogin.take 4 = "1234".toList ∧
      (∀ user, ¬ LogsIn .initial strangerLogin user) ∧
      ¬ DecidedByList (0, 0) false strangerLogin .initial (.construct 0 false) := by
  have code : strangerLogin.take 4 = "1234".toList := by decide +kernel
  refine ⟨code, ?_, ?_⟩
  · rintro user ⟨-, named, account, known, -⟩
    have isStranger : (split strangerLogin "|".toList)[1]? = some "00878".toList := by
      decide +kernel
    obtain rfl : "00878".toList = user := Option.some.inj (isStranger.symm.trans named)
    have unknown : Accounts.initial.lookup "00878".toList = none := by decide +kernel
    cases unknown.symm.trans known
  · rw [decidedByList_iff code]
    rintro ⟨result, answered⟩
    have faulted : (loginUser (0, 0) (split strangerLogin "|".toList) .initial
        (.construct 0 false)).toOption.isNone = true := by decide +kernel
    rw [answered] at faulted
    cases faulted

theorem login_decided_iff_wrongPassword :
    DecidedByList (0, 0) false "1234|0324027|124|".toList .initial (.construct 0 false) :=
  (login_decided_iff (0, 0) false "1234|0324027|124|".toList .initial (.construct 0 false)
    (by decide +kernel)).mpr (.inr ⟨"0324027".toList, _, "124".toList, by decide +kernel, rfl,
      by decide +kernel⟩)

end InertiaTrader
