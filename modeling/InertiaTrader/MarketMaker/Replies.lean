import InertiaTrader.Funclib.RoundTrip
import InertiaTrader.MarketMaker.Client
import InertiaTrader.Server.Login
import InertiaTrader.Trader.GetCancelOrder
import InertiaTrader.Trader.GetOrder
import InertiaTrader.Trader.Reports

/-!
# What the market maker makes of the replies

The texts that the server composes, what each is to change in the market maker,
and when `Client::msgHandler` changes just that.
-/

namespace InertiaTrader

open Foundation

/-- A nid that is a decimal number. -/
structure DecimalNid where
  text : Text
  value : ℕ
  digits : digitsValue text = some value

inductive Verdict where
  | success
  | failed
  | repeatNid
  | insufficientBalance
  | orderExec
  deriving DecidableEq

def Verdict.text : Verdict → Text
  | .success => "success".toList
  | .failed => "failed".toList
  | .repeatNid => "failed, repeat nid".toList
  | .insufficientBalance => "failed, Insufficient balance".toList
  | .orderExec => "OrderExec".toList

def Verdict.Counted (verdict : Verdict) : Prop := verdict = .success ∨ verdict = .orderExec

/-- The replies of the server. -/
inductive Reply where
  /-- The first of the two texts that `loginMsgHandle` sends after a login. -/
  | login (draw : ℕ)
  /-- The second of them. -/
  | loggedIn (draw : ℕ)
  | quote (price : Price) (double : IsDouble price)
  | order (nid : DecimalNid) (verdict : Verdict)

namespace Reply

/-- The text of a reply, with the newline behind it. -/
def text : Reply → Text
  | .login draw => numbered "login|".toList draw
  | .loggedIn draw => numbered "1234|".toList draw
  | .quote price _ => "1233|".toList ++ toStringDouble price ++ "|&".toList ++ "\n".toList
  | .order nid verdict => nid.text ++ "|".toList ++ verdict.text ++ "\n".toList

/-- What a reply is to change. -/
def meaning (client : Client) : Reply → Client
  | .login _ | .loggedIn _ => { client with loginflag := true }
  | .quote price _ => { client with priceNow := some (sixPlaces price) }
  | .order _ .success => { client with orderNum := client.orderNum + 1 }
  | .order _ .orderExec => { client with inventoryNum := client.inventoryNum + 1 }
  | .order _ _ => client

/-- The replies that are understood: the text that starts with the code of the
login, quotes, and refusals, unless the nid reads as that code.  Setting a flag
that is set already changes nothing. -/
def Understood (client : Client) : Reply → Prop
  | .login _ => client.loginflag = true
  | .loggedIn _ | .quote _ _ => True
  | .order nid verdict => ¬ verdict.Counted ∧ (nid.value = 1234 → client.loginflag = true)

theorem meaning_of_not_counted (client : Client) (nid : DecimalNid) {verdict : Verdict}
    (uncounted : ¬ verdict.Counted) : (order nid verdict).meaning client = client := by
  cases verdict with
  | success => exact absurd (.inl rfl) uncounted
  | orderExec => exact absurd (.inr rfl) uncounted
  | failed | repeatNid | insufficientBalance => rfl

theorem text_order (nid : DecimalNid) (verdict : Verdict) {reason : Text}
    (same : reason = '|' :: verdict.text) :
    nid.text ++ reason ++ "\n".toList = (order nid verdict).text := by
  have layout : (order nid verdict).text =
      nid.text ++ "|".toList ++ verdict.text ++ "\n".toList := rfl
  have separated : '|' :: verdict.text = "|".toList ++ verdict.text := rfl
  rw [same, layout, separated, List.append_assoc nid.text "|".toList verdict.text]

theorem of_handling {server : MariaDB} {address : ℕ} {connected : Bool} {connId : ℤ}
    {od : Order} {trader next : Trader} {cn : ConnRef} {observations : List Observation}
    (handling : Trader.Handling server address connected connId od trader cn next observations)
    (nid : DecimalNid) (named : od.nid = nid.text) {receiver : ConnRef} {sent : Text}
    (listed : .sent receiver sent ∈ observations) :
    ∃ verdict, sent = (order nid verdict).text := by
  cases handling with
  | failed =>
      simp only [List.mem_cons, List.not_mem_nil, Observation.sent.injEq, reduceCtorEq,
        or_false] at listed
      refine ⟨.failed, listed.2.trans ?_⟩
      rw [named]
      exact text_order nid .failed rfl
  | insufficient =>
      simp only [List.mem_cons, List.not_mem_nil, Observation.sent.injEq, reduceCtorEq,
        or_false, false_or] at listed
      refine ⟨.insufficientBalance, listed.2.trans ?_⟩
      rw [named]
      exact text_order nid .insufficientBalance rfl
  | accepted =>
      simp only [List.mem_cons, List.not_mem_nil, Observation.sent.injEq, reduceCtorEq,
        or_false, false_or] at listed
      by_cases stored : trader.storesOrder server connected od = true
      · refine ⟨.success, listed.2.trans ?_⟩
        rw [Trader.acceptReply, Trader.acceptedOrder_nid, named, if_pos stored]
        exact text_order nid .success rfl
      · refine ⟨.repeatNid, listed.2.trans ?_⟩
        rw [Trader.acceptReply, Trader.acceptedOrder_nid, named, if_neg stored]
        exact text_order nid .repeatNid rfl

theorem of_sendExecReport {server : MariaDB} {inserts updates : Bool} {reported : OrderPtr}
    {trader next : Trader} {observations : List Observation}
    (finished : trader.sendExecReport server inserts updates reported = .ok (next, observations))
    (nid : DecimalNid) (named : reported.order.nid = nid.text) {receiver : ConnRef} {sent : Text}
    (listed : .sent receiver sent ∈ observations) :
    sent = (order nid .orderExec).text := by
  obtain ⟨_, _, _, cn, -, -, -, -, observed⟩ := Trader.sendExecReport_cases finished
  rw [observed] at listed
  simp only [List.mem_cons, List.not_mem_nil, Observation.sent.injEq, reduceCtorEq,
    or_false] at listed
  rw [named] at listed
  exact listed.2.trans (text_order nid .orderExec rfl)

theorem of_priceAsking {sr : Server} {msg : Text} {sent : List (ConnRef × Text)}
    (answered : sr.priceAsking msg = .ok sent)
    (doubles : ∀ name stock, sr.quotesList.lookup name = some stock → IsDouble stock.priceNow) :
    ∀ receiver text, (receiver, text) ∈ sent →
      ∃ (price : Price) (double : IsDouble price), text = (quote price double).text := by
  obtain ⟨name, -, answered⟩ := bind_eq_ok_iff.mp answered
  split at answered
  next => cases answered
  next stock known =>
    obtain ⟨connText, -, answered⟩ := bind_eq_ok_iff.mp answered
    split at answered
    next =>
      cases answered
      exact fun _ _ listed => absurd listed List.not_mem_nil
    next connNum _ =>
      obtain ⟨reply, replied, returned⟩ := bind_eq_ok_iff.mp answered
      obtain ⟨cn, -, rfl⟩ := Server.sendToClient_eq_ok_iff.mp replied
      cases returned
      intro receiver text listed
      cases List.mem_singleton.mp listed
      exact ⟨stock.priceNow, doubles name stock known, rfl⟩

end Reply

structure PlainField (text : Text) : Prop where
  nonempty : text ≠ []
  plain : ∀ symbol ∈ text, symbol ≠ '\x00' ∧ symbol ≠ '|' ∧ symbol ≠ '<'

namespace PlainField

theorem noNul {text : Text} (field : PlainField text) : '\x00' ∉ text := by
  intro membership
  exact (field.plain _ membership).1 rfl

theorem split_eq {text : Text} (field : PlainField text) : split text "|".toList = [text] := by
  apply split_plain field.nonempty field.noNul (by decide)
  intro membership
  exact (field.plain _ membership).2.1 rfl

theorem split_append {text rest : Text} (field : PlainField text) (restNoNul : '\x00' ∉ rest) :
    split (text ++ '|' :: rest) "|".toList = text :: split rest "|".toList := by
  have delimiter : "|".toList = ['|'] := rfl
  have single := field.split_eq
  rw [delimiter] at single ⊢
  rw [split_append_delimiter field.noNul restNoNul (by decide), single, List.singleton_append]

theorem noHeartbeat {text : Text} (field : PlainField text) (rest : Text) :
    (text ++ rest).take 2 ≠ "<3".toList := by
  cases text with
  | nil => exact absurd rfl field.nonempty
  | cons symbol tail =>
      intro heartbeat
      have first := (field.plain symbol List.mem_cons_self).2.2
      rw [List.cons_append, List.take_succ_cons] at heartbeat
      exact first (List.cons.inj heartbeat).1

theorem of_all {text : Text} (nonempty : text ≠ [])
    (all : text.all (fun symbol => symbol ∉ ['\x00', '|', '<']) = true) : PlainField text where
  nonempty
  plain := by
    intro symbol membership
    simpa using List.all_eq_true.mp all symbol membership

theorem of_isDigit {text : Text} (nonempty : text ≠ [])
    (digits : ∀ symbol ∈ text, symbol.isDigit = true) : PlainField text where
  nonempty
  plain := by
    intro symbol membership
    have digit := digits symbol membership
    exact ⟨ne_of_isDigit digit (by decide), ne_of_isDigit digit (by decide),
      ne_of_isDigit digit (by decide)⟩

theorem newline {text : Text} (field : PlainField text) : PlainField (text ++ "\n".toList) where
  nonempty := by simp
  plain := by
    intro symbol membership
    rcases List.mem_append.mp membership with inside | last
    · exact field.plain symbol inside
    · rw [List.mem_singleton.mp last]
      exact ⟨by decide, by decide, by decide⟩

end PlainField

theorem DecimalNid.plainField (nid : DecimalNid) : PlainField nid.text := by
  apply PlainField.of_isDigit
  · intro empty
    have digits := nid.digits
    rw [empty] at digits
    cases digits
  · intro symbol membership
    exact isDigit_of_mem_digits nid.digits membership

theorem Verdict.plainField (verdict : Verdict) : PlainField verdict.text := by
  cases verdict <;> exact .of_all (by decide) (by decide)

theorem plainField_natText (value : ℕ) : PlainField (natText value) :=
  .of_isDigit (natText_ne_nil value) fun _ membership => isDigit_of_mem_natText membership

theorem plainField_toStringDouble (price : Price) : PlainField (toStringDouble price) := by
  cases price with
  | nan | negInf | posInf => exact .of_all (by decide) (by decide)
  | fin value =>
      have units : PlainField (fixedText 6 (roundHalfEven (|value| * 10 ^ 6)).toNat) := by
        refine ⟨List.append_ne_nil_of_right_ne_nil _ (List.cons_ne_nil _ _), ?_⟩
        intro symbol membership
        rcases mem_fixedText membership with rfl | digit
        · decide
        · exact ⟨ne_of_isDigit digit (by decide), ne_of_isDigit digit (by decide),
            ne_of_isDigit digit (by decide)⟩
      by_cases negative : value < 0
      · rw [toStringDouble, sixDecimals, if_pos negative]
        refine ⟨by simp, ?_⟩
        intro symbol membership
        rcases List.mem_cons.mp membership with rfl | later
        · decide
        · exact units.plain symbol later
      · rw [toStringDouble, sixDecimals, if_neg negative]
        exact units

namespace Client

theorem msgHandler_reply {code answer rest : Text} {more : List Text}
    (codeField : PlainField code) (restNoNul : '\x00' ∉ rest)
    (fields : split rest "|".toList = answer :: more) (client : Client) :
    client.msgHandler (code ++ '|' :: rest) = .ok (client.updated (stoi code) answer) := by
  apply msgHandler_of_fields (codeField.noHeartbeat _)
  rw [codeField.split_append restNoNul, fields]

theorem countAnswer_verdict (client : Client) (verdict : Verdict) :
    client.countAnswer (verdict.text ++ "\n".toList) = client := by
  cases verdict <;> rfl

theorem stod_verdict (verdict : Verdict) : stod (verdict.text ++ "\n".toList) = none := by
  cases verdict <;> decide

theorem updated_verdict (client : Client) (nid : DecimalNid) (verdict : Verdict) :
    client.updated (stoi nid.text) (verdict.text ++ "\n".toList) =
      if nid.value = 1234 then { client with loginflag := true } else client := by
  rw [stoi_of_digitsValue nid.digits]
  by_cases login : nid.value = 1234
  · rw [if_pos login, login]
    rfl
  rw [if_neg login]
  by_cases small : nid.value < 2 ^ 31
  · rw [if_pos small]
    by_cases quote : nid.value = 1233
    · rw [quote]
      exact client.updated_of_unreadQuote (stod_verdict verdict)
    · rw [updated_of_order (by exact_mod_cast quote) (by exact_mod_cast login),
        countAnswer_verdict]
  · rw [if_neg small]
    rfl

theorem msgHandler_numbered {code : Text} (codeField : PlainField code) (draw : ℕ)
    (client : Client) :
    client.msgHandler (numbered (code ++ "|".toList) draw) =
      .ok (client.updated (stoi code) (natText (draw % 100000) ++ "\n".toList)) := by
  have answer := (plainField_natText (draw % 100000)).newline
  have layout : numbered (code ++ "|".toList) draw =
      code ++ '|' :: (natText (draw % 100000) ++ "\n".toList) := by
    simp [numbered]
  rw [layout]
  exact msgHandler_reply codeField answer.noNul answer.split_eq client

theorem msgHandler_quote {price : Price} (double : IsDouble price) (client : Client) :
    client.msgHandler (Reply.quote price double).text =
      .ok { client with priceNow := some (sixPlaces price) } := by
  have shown := plainField_toStringDouble price
  have layout : (Reply.quote price double).text =
      "1233".toList ++ '|' :: (toStringDouble price ++ '|' :: "&\n".toList) := by
    have parts : (Reply.quote price double).text =
        "1233|".toList ++ toStringDouble price ++ "|&".toList ++ "\n".toList := rfl
    rw [parts, List.append_assoc, List.append_assoc]
    rfl
  have restNoNul : '\x00' ∉ toStringDouble price ++ '|' :: "&\n".toList := by
    rw [List.mem_append, not_or]
    exact ⟨shown.noNul, by decide⟩
  have codeField : PlainField "1233".toList := .of_all (by decide) (by decide)
  have handled := msgHandler_reply codeField restNoNul (shown.split_append (by decide)) client
  have code : stoi "1233".toList = some 1233 := by decide
  rw [layout, handled, code, client.updated_of_quote (stod_toStringDouble double)]

theorem msgHandler_order (nid : DecimalNid) (verdict : Verdict) (client : Client) :
    client.msgHandler (Reply.order nid verdict).text =
      .ok (if nid.value = 1234 then { client with loginflag := true } else client) := by
  have answer := verdict.plainField.newline
  have layout : (Reply.order nid verdict).text =
      nid.text ++ '|' :: (verdict.text ++ "\n".toList) := by
    have parts : (Reply.order nid verdict).text =
        nid.text ++ "|".toList ++ verdict.text ++ "\n".toList := rfl
    rw [parts, List.append_assoc nid.text, List.append_assoc nid.text]
    rfl
  rw [layout, msgHandler_reply nid.plainField answer.noNul answer.split_eq, updated_verdict]

theorem counted_ne (client : Client) (nid : DecimalNid) {verdict : Verdict}
    (counted : verdict.Counted) :
    (if nid.value = 1234 then { client with loginflag := true } else client) ≠
      (Reply.order nid verdict).meaning client := by
  have orderNum : (if nid.value = 1234 then { client with loginflag := true }
      else client).orderNum = client.orderNum := by
    split <;> rfl
  have inventoryNum : (if nid.value = 1234 then { client with loginflag := true }
      else client).inventoryNum = client.inventoryNum := by
    split <;> rfl
  intro same
  rcases counted with rfl | rfl
  · rw [same] at orderNum
    have moved : client.orderNum + 1 = client.orderNum := orderNum
    omega
  · rw [same] at inventoryNum
    have moved : client.inventoryNum + 1 = client.inventoryNum := inventoryNum
    omega

theorem login_eq_self_iff (client : Client) :
    { client with loginflag := true } = client ↔ client.loginflag = true := by
  constructor
  · intro same
    exact (congrArg Client.loginflag same).symm
  · intro logged
    cases client
    cases logged
    rfl

end Client

/-- The market maker makes of a reply what it is to make of it exactly when the
reply is one of those that are understood. -/
theorem reply_understood_iff (client : Client) (reply : Reply) :
    client.msgHandler reply.text = .ok (reply.meaning client) ↔ reply.Understood client := by
  cases reply with
  | login draw =>
      have code : PlainField "login".toList := .of_all (by decide) (by decide)
      have handled : client.msgHandler (Reply.login draw).text = .ok client :=
        client.msgHandler_numbered code draw
      rw [handled, Except.ok.injEq, eq_comm]
      exact client.login_eq_self_iff
  | loggedIn draw =>
      have code : PlainField "1234".toList := .of_all (by decide) (by decide)
      have handled : client.msgHandler (Reply.loggedIn draw).text =
          .ok { client with loginflag := true } :=
        client.msgHandler_numbered code draw
      exact iff_of_true handled trivial
  | quote price double => exact iff_of_true (client.msgHandler_quote double) trivial
  | order nid verdict =>
      rw [client.msgHandler_order, Except.ok.injEq]
      by_cases counted : verdict.Counted
      · refine iff_of_false ?_ fun understood => understood.1 counted
        exact client.counted_ne nid counted
      · rw [Reply.meaning_of_not_counted client nid counted]
        by_cases login : nid.value = 1234
        · rw [if_pos login, client.login_eq_self_iff]
          exact ⟨fun logged => ⟨counted, fun _ => logged⟩, fun understood => understood.2 login⟩
        · rw [if_neg login]
          exact iff_of_true rfl ⟨counted, fun code => absurd code login⟩

/-- The market maker sells at 64, the order is accepted, and it does not count
the answer. -/
theorem success_not_counted :
    ∃ (client : Client) (nid : DecimalNid), nid.text = "313542".toList ∧ client.orderNum = 0 ∧
      client.msgHandler (Reply.order nid .success).text = .ok client ∧
      client.msgHandler (Reply.order nid .success).text ≠
        .ok ((Reply.order nid .success).meaning client) := by
  refine ⟨{ loginflag := true }, ⟨"313542".toList, 313542, by decide +kernel⟩, rfl, rfl, ?_, ?_⟩
  · decide +kernel
  · decide +kernel

end InertiaTrader
