import InertiaTrader.Orders.Intake

/-!
# Dispatch

`msgHandler` switches on the code of a message.  The cases 88 and 89 have no
`break` and run into the answer to a price enquiry, which takes its second field
for a symbol and its third for a connection id.
-/

namespace InertiaTrader

namespace Server

/-- The line that answers a price enquiry. -/
def quoteLine (stock : Stock) : Text :=
  "1233|".toList ++ toStringDouble stock.priceNow ++ "|&".toList ++ "\n".toList

inductive Dispatch (sr : Server) (msg : Text) (requester : ConnRef) :
    Server → List (ConnRef × Text) → Prop where
  | order :
      codeNum msg = some 87 →
      Dispatch sr msg requester { sr with dq := sr.dq ++ [msg] } []
  | amend :
      codeNum msg = some 88 ∨ codeNum msg = some 89 →
      Dispatch sr msg requester { sr with dqOrderhandle := sr.dqOrderhandle ++ [msg] } []
  | quote (symbol : Text) (stock : Stock) :
      codeNum msg = some 1233 → (split msg "|".toList)[1]? = some symbol →
      sr.quotesList.lookup symbol = some stock →
      Dispatch sr msg requester sr [(requester, quoteLine stock)]
  | nothing :
      Dispatch sr msg requester sr []

/-- A call of `msgHandler` does one thing and keeps the keys of `quotesList`. -/
def DoesOneThing (sr : Server) (msg : Text) (requester : ConnRef) : Prop :=
  ∃ next replies, sr.msgHandler msg = .ok (next, replies) ∧
    Dispatch sr msg requester next replies ∧
    next.quotesList.map Prod.fst = sr.quotesList.map Prod.fst

structure NamesStock (sr : Server) (msg symbol third : Text) (stock : Stock) : Prop where
  symbolField : (split msg "|".toList)[1]? = some symbol
  known : sr.quotesList.lookup symbol = some stock
  thirdField : (split msg "|".toList)[2]? = some third

/-- The messages with which the missing `break` and the fields of an enquiry do no
harm. -/
structure Harmless (sr : Server) (msg : Text) (requester : ConnRef) : Prop where
  amend : codeNum msg = some 88 ∨ codeNum msg = some 89 →
    ∃ symbol third stock, NamesStock sr msg symbol third stock ∧ stoi third = none
  enquiry : codeNum msg = some 1233 →
    ∃ symbol third stock, NamesStock sr msg symbol third stock ∧
      ∀ connNum, stoi third = some connNum → sr.getConnObject connNum = some requester

section

variable {sr next : Server} {msg : Text} {requester : ConnRef} {replies : List (ConnRef × Text)}

theorem priceAsking_eq_ok_iff :
    sr.priceAsking msg = .ok replies ↔
      ∃ symbol third stock, NamesStock sr msg symbol third stock ∧
        ((stoi third = none ∧ replies = []) ∨
          ∃ connNum cn, stoi third = some connNum ∧ sr.getConnObject connNum = some cn ∧
            replies = [(cn, quoteLine stock)]) := by
  constructor
  · intro answered
    obtain ⟨symbol, symbolField, answered⟩ := bind_eq_ok_iff.mp answered
    split at answered
    next => cases answered
    next stock known =>
      obtain ⟨third, thirdField, answered⟩ := bind_eq_ok_iff.mp answered
      refine ⟨symbol, third, stock,
        ⟨field_eq_ok_iff.mp symbolField, known, field_eq_ok_iff.mp thirdField⟩, ?_⟩
      split at answered
      next unread =>
        cases answered
        exact .inl ⟨unread, rfl⟩
      next connNum read =>
        obtain ⟨sent, replied, returned⟩ := bind_eq_ok_iff.mp answered
        obtain ⟨cn, registered, rfl⟩ := sendToClient_eq_ok_iff.mp replied
        cases returned
        exact .inr ⟨connNum, cn, read, registered, rfl⟩
  · rintro ⟨symbol, third, stock, names, outcome⟩
    simp only [priceAsking, field, names.symbolField, names.known, names.thirdField, bind,
      Except.bind]
    rcases outcome with ⟨unread, rfl⟩ | ⟨connNum, cn, read, registered, rfl⟩
    · rw [unread]
      rfl
    · have replied : sr.sendToClient connNum ("1233|".toList ++ toStringDouble stock.priceNow ++
          "|&".toList) = .ok (cn, quoteLine stock) :=
        sendToClient_eq_ok_iff.mpr ⟨cn, registered, rfl⟩
      simp only [read, replied]
      rfl

theorem route_cases (sr : Server) (msg : Text) :
    (codeNum msg = some 87 ∧ sr.route msg = ({ sr with dq := sr.dq ++ [msg] }, false)) ∨
      ((codeNum msg = some 88 ∨ codeNum msg = some 89) ∧
        sr.route msg = ({ sr with dqOrderhandle := sr.dqOrderhandle ++ [msg] }, true)) ∨
      (codeNum msg = some 1233 ∧ sr.route msg = (sr, true)) ∨
      (codeNum msg ≠ some 88 ∧ codeNum msg ≠ some 89 ∧ codeNum msg ≠ some 1233 ∧
        sr.route msg = (sr, false)) := by
  unfold route
  split
  next code => exact .inl ⟨code, rfl⟩
  next code => exact .inr (.inl ⟨.inl code, rfl⟩)
  next code => exact .inr (.inl ⟨.inr code, rfl⟩)
  next code => exact .inr (.inr (.inl ⟨code, rfl⟩))
  next _ notCancel notModify notEnquiry =>
    exact .inr (.inr (.inr ⟨notCancel, notModify, notEnquiry, rfl⟩))

theorem msgHandler_quiet (routed : sr.route msg = (next, false)) :
    sr.msgHandler msg = .ok (next, []) := by
  simp only [msgHandler, routed]
  rfl

theorem msgHandler_asking_iff {after : Server} (routed : sr.route msg = (next, true)) :
    sr.msgHandler msg = .ok (after, replies) ↔
      after = next ∧ next.priceAsking msg = .ok replies := by
  simp only [msgHandler, routed, if_true, bind_eq_ok_iff]
  constructor
  · rintro ⟨_, answered, returned⟩
    cases returned
    exact ⟨rfl, answered⟩
  · rintro ⟨rfl, answered⟩
    exact ⟨replies, answered, rfl⟩

theorem doesOneThing_of_quiet (routed : sr.route msg = (next, false))
    (dispatch : Dispatch sr msg requester next [])
    (sameQuotes : next.quotesList = sr.quotesList) : DoesOneThing sr msg requester :=
  ⟨next, [], msgHandler_quiet routed, dispatch, by rw [sameQuotes]⟩

theorem Dispatch.unanswered (code : codeNum msg = some 88 ∨ codeNum msg = some 89)
    (dispatch : Dispatch sr msg requester next replies) : replies = [] := by
  cases dispatch with
  | order | amend | nothing => rfl
  | quote symbol stock enquiry =>
      rw [enquiry] at code
      simp at code

theorem Dispatch.quoted (dispatch : Dispatch sr msg requester next replies) :
    replies = [] ∨ ∃ symbol stock, (split msg "|".toList)[1]? = some symbol ∧
      sr.quotesList.lookup symbol = some stock ∧ replies = [(requester, quoteLine stock)] := by
  cases dispatch with
  | order | amend | nothing => exact .inl rfl
  | quote symbol stock _ symbolField known =>
      exact .inr ⟨symbol, stock, symbolField, known, rfl⟩

theorem amend_doesOneThing_iff (code : codeNum msg = some 88 ∨ codeNum msg = some 89)
    (routed : sr.route msg = ({ sr with dqOrderhandle := sr.dqOrderhandle ++ [msg] }, true)) :
    DoesOneThing sr msg requester ↔
      ∃ symbol third stock, NamesStock sr msg symbol third stock ∧ stoi third = none := by
  constructor
  · rintro ⟨next, replies, finished, dispatch, -⟩
    obtain ⟨rfl, answered⟩ := (msgHandler_asking_iff routed).mp finished
    obtain ⟨symbol, third, stock, names, outcome⟩ := priceAsking_eq_ok_iff.mp answered
    obtain rfl := dispatch.unanswered code
    refine ⟨symbol, third, stock, ⟨names.symbolField, names.known, names.thirdField⟩, ?_⟩
    rcases outcome with ⟨unread, -⟩ | ⟨_, _, -, -, impossible⟩
    · exact unread
    · cases impossible
  · rintro ⟨symbol, third, stock, names, unread⟩
    refine ⟨_, [], (msgHandler_asking_iff routed).mpr ⟨rfl, ?_⟩, .amend code, rfl⟩
    exact priceAsking_eq_ok_iff.mpr ⟨symbol, third, stock,
      ⟨names.symbolField, names.known, names.thirdField⟩, .inl ⟨unread, rfl⟩⟩

theorem enquiry_doesOneThing_iff (code : codeNum msg = some 1233)
    (routed : sr.route msg = (sr, true)) :
    DoesOneThing sr msg requester ↔
      ∃ symbol third stock, NamesStock sr msg symbol third stock ∧
        ∀ connNum, stoi third = some connNum → sr.getConnObject connNum = some requester := by
  constructor
  · rintro ⟨next, replies, finished, dispatch, -⟩
    obtain ⟨rfl, answered⟩ := (msgHandler_asking_iff routed).mp finished
    obtain ⟨symbol, third, stock, names, outcome⟩ := priceAsking_eq_ok_iff.mp answered
    refine ⟨symbol, third, stock, names, fun connNum read => ?_⟩
    rcases outcome with ⟨unread, -⟩ | ⟨connNum', cn, read', registered, rfl⟩
    · cases unread.symm.trans read
    · obtain rfl : connNum = connNum' := Option.some.inj (read.symm.trans read')
      rcases dispatch.quoted with impossible | ⟨_, stock', -, -, sent⟩
      · cases impossible
      · rw [List.cons.injEq, Prod.mk.injEq] at sent
        rw [registered, sent.1.1]
  · rintro ⟨symbol, third, stock, names, registered⟩
    cases read : stoi third with
    | none =>
        refine ⟨sr, [], (msgHandler_asking_iff routed).mpr ⟨rfl, ?_⟩, .nothing, rfl⟩
        exact priceAsking_eq_ok_iff.mpr ⟨symbol, third, stock, names, .inl ⟨read, rfl⟩⟩
    | some connNum =>
        refine ⟨sr, _, (msgHandler_asking_iff routed).mpr ⟨rfl, ?_⟩,
          .quote symbol stock code names.symbolField names.known, rfl⟩
        exact priceAsking_eq_ok_iff.mpr ⟨symbol, third, stock, names,
          .inr ⟨connNum, requester, read, registered connNum read, rfl⟩⟩

end

/-- Dispatch does one thing with every message but those that it takes, rightly
or wrongly, for an enquiry whose symbol or connection is not as it should be. -/
theorem does_one_thing_iff (sr : Server) (msg : Text) (requester : ConnRef) :
    DoesOneThing sr msg requester ↔ Harmless sr msg requester := by
  rcases route_cases sr msg with ⟨code, routed⟩ | ⟨code, routed⟩ | ⟨code, routed⟩ |
    ⟨notCancel, notModify, notEnquiry, routed⟩
  · apply iff_of_true (doesOneThing_of_quiet routed (.order code) rfl)
    constructor
    · intro amends
      simp [code] at amends
    · intro enquires
      simp [code] at enquires
  · rw [amend_doesOneThing_iff code routed]
    constructor
    · intro asked
      refine ⟨fun _ => asked, fun enquires => ?_⟩
      simp [enquires] at code
    · exact fun harmless => harmless.amend code
  · rw [enquiry_doesOneThing_iff code routed]
    constructor
    · intro asked
      refine ⟨fun amends => ?_, fun _ => asked⟩
      simp [code] at amends
    · exact fun harmless => harmless.enquiry code
  · apply iff_of_true (doesOneThing_of_quiet routed .nothing rfl)
    constructor
    · rintro (cancels | modifies)
      · exact absurd cancels notCancel
      · exact absurd modifies notModify
    · exact fun enquires => absurd enquires notEnquiry

/-- The user of `init.sql` is logged in, and nothing has been received yet. -/
def listening : Server where
  connStorage := [(0, 0)]
  connections _ := ⟨0, "0324027".toList, true⟩
  userList := initialUsers
  quotesList := initialQuotes

/-- The cancellation of the documentation makes the server read the price of the
stock `31350`. -/
theorem cancellation_falls_through :
    codeNum (addressed "88|31350|60|1|1|1|KKC|".toList (listening.connections 0)) = some 88 ∧
      ¬ DoesOneThing listening
        (addressed "88|31350|60|1|1|1|KKC|".toList (listening.connections 0)) 0 := by
  refine ⟨by decide +kernel, ?_⟩
  rintro ⟨next, replies, finished, -⟩
  have faulted : (listening.msgHandler (addressed "88|31350|60|1|1|1|KKC|".toList
      (listening.connections 0))).toOption.isNone = true := by decide +kernel
  rw [finished] at faulted
  cases faulted

end Server

end InertiaTrader
