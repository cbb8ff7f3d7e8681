import InertiaTrader.Orders.Intake

/-!
# The code of a command

`msgHandler` reads the code of a message with `std::stoi`, `getCancelOrder`
compares the first field with `88` and takes every other message for a
modification.
-/

namespace InertiaTrader

open Foundation

namespace Trader

def cancelOrder (server : MariaDB) (connected : Bool) (res : List Text) (trader : Trader) :
    Except Fault (Trader × List Observation) := do
  let side ← field res 3
  if side = "1".toList then
    cancelFrom server connected .buyside res trader
  else if side = "2".toList then
    cancelFrom server connected .sellside res trader
  else
    return (trader, ← trader.answer res "|cancel order error".toList)

/-- `getCancelOrder` takes a message for a cancellation. -/
def TakesForCancel (msg : Text) : Prop := (split msg "|".toList)[0]? = some "88".toList

/-- `getCancelOrder` takes a message for a modification. -/
def TakesForModify (msg : Text) : Prop :=
  ∃ code, (split msg "|".toList)[0]? = some code ∧ code ≠ "88".toList

theorem amendOrder_cancel (server : MariaDB) (connected : Bool) (trader : Trader) {msg : Text}
    (cancels : TakesForCancel msg) :
    amendOrder server connected (split msg "|".toList) trader =
      cancelOrder server connected (split msg "|".toList) trader := by
  have code : (split msg "|".toList)[0]? = some "88".toList := cancels
  simp only [amendOrder, field, code, bind, Except.bind, if_true, cancelOrder]

theorem amendOrder_modify (server : MariaDB) (connected : Bool) (trader : Trader) {msg : Text}
    (modifies : TakesForModify msg) :
    amendOrder server connected (split msg "|".toList) trader =
      modifyOrder server connected (split msg "|".toList) trader := by
  obtain ⟨code, codeField, notCancel⟩ := modifies
  simp only [amendOrder, field, codeField, bind, Except.bind, notCancel, if_false]

end Trader

/-- Both readers of a message agree on what it asks for. -/
structure ReadersAgree (msg : Text) : Prop where
  cancel : Trader.TakesForCancel msg ↔ Server.codeNum msg = some 88
  modify : Trader.TakesForModify msg ↔ Server.codeNum msg = some 89

/-- A text from which a number is read starts neither with the delimiter nor with
a NUL. -/
theorem exists_cons_of_stoi {msg : Text} {code : ℤ}
    (read : stoi (msg.takeWhile (· ≠ '|')) = some code) :
    ∃ symbol rest, msg = symbol :: rest ∧ symbol ≠ '|' ∧ symbol ≠ '\x00' := by
  cases msg with
  | nil => cases read
  | cons symbol rest =>
      refine ⟨symbol, rest, rfl, ?_, ?_⟩
      · rintro rfl
        cases read
      · rintro rfl
        simp [stoi, splitSign, isSpace] at read

theorem split_getElem?_zero {symbol : Char} {rest : Text} (notDelimiter : symbol ≠ '|')
    (notNul : symbol ≠ '\x00') :
    (split (symbol :: rest) "|".toList)[0]? =
      some (cString ((symbol :: rest).takeWhile (· ≠ '|'))) := by
  have delimiter : cString "|".toList = ['|'] := by decide
  have copied : cString (symbol :: rest) = [symbol] ++ cString rest := by
    simp [cString, notNul]
  rw [split, if_neg (List.cons_ne_nil _ _), delimiter, copied,
    tokens_append_plain (List.cons_ne_nil _ _) (by simpa using notDelimiter)]
  simp [cString, notDelimiter, notNul, List.takeWhile_takeWhile, Bool.and_comm]

theorem code_of_queued {sr : Server} {msg : Text}
    (queued : (sr.route msg).1.dqOrderhandle = sr.dqOrderhandle ++ [msg]) :
    Server.codeNum msg = some 88 ∨ Server.codeNum msg = some 89 := by
  rw [(sr.route_queues msg).2] at queued
  split at queued
  next code => exact code
  next => simp at queued

theorem stoi_of_codeNum {msg : Text} {code : ℤ} (read : Server.codeNum msg = some code) :
    stoi (msg.takeWhile (· ≠ '|')) = some code := by
  unfold Server.codeNum at read
  split at read
  next => cases read
  next => exact read

theorem stoi_of_cString {text : Text} (code : cString text = "88".toList) :
    stoi text = some 88 := by
  have parts := List.takeWhile_append_dropWhile (p := (· ≠ '\x00')) (l := text)
  have digits : text.takeWhile (· ≠ '\x00') = ['8', '8'] := code
  rw [digits] at parts
  rw [← parts]
  cases rest : text.dropWhile (· ≠ '\x00') with
  | nil => decide +kernel
  | cons symbol rest' =>
      have isNul : symbol = '\x00' := by
        have stopped := List.head?_dropWhile_not (· ≠ '\x00') text
        rw [rest] at stopped
        simpa using stopped
      subst isNul
      have read : ('8' :: '8' :: '\x00' :: rest').takeWhile Char.isDigit = ['8', '8'] := rfl
      simp only [stoi, List.cons_append, List.nil_append,
        dropWhile_isSpace_of_isDigit (by decide : '8'.isDigit = true),
        splitSign_of_isDigit (by decide : '8'.isDigit = true), read]
      decide +kernel

/-- The readers agree on every modification, and on the cancellations whose code is
written as `88` and not otherwise. -/
theorem readers_agree_iff (sr : Server) (msg : Text)
    (queued : (sr.route msg).1.dqOrderhandle = sr.dqOrderhandle ++ [msg]) :
    ReadersAgree msg ↔
      Server.codeNum msg = some 89 ∨ cString (msg.takeWhile (· ≠ '|')) = "88".toList := by
  have code := code_of_queued queued
  obtain ⟨symbol, rest, rfl, notDelimiter, notNul⟩ :=
    code.elim (exists_cons_of_stoi ∘ stoi_of_codeNum) (exists_cons_of_stoi ∘ stoi_of_codeNum)
  have first : (split (symbol :: rest) "|".toList)[0]? =
      some (cString ((symbol :: rest).takeWhile (· ≠ '|'))) :=
    split_getElem?_zero notDelimiter notNul
  have cancel_iff : Trader.TakesForCancel (symbol :: rest) ↔
      cString ((symbol :: rest).takeWhile (· ≠ '|')) = "88".toList := by
    rw [Trader.TakesForCancel, first, Option.some.injEq]
  have modify_iff : Trader.TakesForModify (symbol :: rest) ↔
      cString ((symbol :: rest).takeWhile (· ≠ '|')) ≠ "88".toList := by
    simp only [Trader.TakesForModify, first, Option.some.injEq, exists_eq_left']
  have agree_iff : ReadersAgree (symbol :: rest) ↔
      (Trader.TakesForCancel (symbol :: rest) ↔ Server.codeNum (symbol :: rest) = some 88) ∧
        (Trader.TakesForModify (symbol :: rest) ↔ Server.codeNum (symbol :: rest) = some 89) :=
    ⟨fun agree => ⟨agree.cancel, agree.modify⟩, fun agree => ⟨agree.1, agree.2⟩⟩
  rw [agree_iff, cancel_iff, modify_iff]
  rcases code with cancels | modifies
  · simp [cancels]
  · have notCancel : cString ((symbol :: rest).takeWhile (· ≠ '|')) ≠ "88".toList := by
      intro isCancel
      have read := stoi_of_codeNum modifies
      rw [stoi_of_cString isCancel] at read
      cases read
    have notEightyEight : Server.codeNum (symbol :: rest) ≠ some 88 := by simp [modifies]
    exact iff_of_true ⟨iff_of_false notCancel notEightyEight, iff_of_true notCancel modifies⟩
      (.inl modifies)

/-- A cancellation whose code is written with a leading zero. -/
def paddedCancellation : Text := "088|KKC|abc|1|1|1|KKC|0|".toList

/-- `msgHandler` reads it as a cancellation and `getCancelOrder` takes it for a modification. -/
theorem paddedCancellation_modifies :
    ((Server.construct Server.initialUsers (fun _ => ⟨0, "0324027".toList, true⟩)).route
        paddedCancellation).1.dqOrderhandle = [paddedCancellation] ∧
      Server.codeNum paddedCancellation = some 88 ∧ Trader.TakesForModify paddedCancellation ∧
      ¬ ReadersAgree paddedCancellation := by
  have isCancel : Server.codeNum paddedCancellation = some 88 := by decide +kernel
  have modifies : Trader.TakesForModify paddedCancellation :=
    ⟨"088".toList, by decide +kernel, by decide +kernel⟩
  refine ⟨by decide +kernel, isCancel, modifies, fun agree => ?_⟩
  cases isCancel.symm.trans (agree.modify.mp modifies)

theorem readers_agree_iff_paddedCancellation :
    ReadersAgree paddedCancellation ↔ Server.codeNum paddedCancellation = some 89 ∨
      cString (paddedCancellation.takeWhile (· ≠ '|')) = "88".toList :=
  readers_agree_iff (Server.construct Server.initialUsers fun _ => ⟨0, "0324027".toList, true⟩)
    paddedCancellation (by decide +kernel)

end InertiaTrader
