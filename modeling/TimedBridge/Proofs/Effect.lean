import TimedBridge.Outcome

/-!
What a list of effects tells: the packets that were offered, with whether they were taken, the ticks
for which an attempt to send was asked for, and the number of retries that the initiator was sent.
-/

namespace TimedBridge

namespace Effect

/-- The offers among effects: the direction, the packet, and whether it was taken. -/
def offers (effects : List Effect) : List (Direction × Packet × Bool) :=
  effects.filterMap fun
    | .offer direction packet taken => some (direction, packet, taken)
    | _ => none

/-- The ticks for which effects ask for an attempt to send in a direction. -/
def asksFor (direction : Direction) (effects : List Effect) : List Tick :=
  (asked effects).filterMap fun ask => if ask.2 = direction then some ask.1 else none

/-- The number of retries that effects send to the initiator. -/
def notifications (effects : List Effect) : Nat := effects.count .notifyRetry

variable (effects more : List Effect)

theorem asked_append : asked (effects ++ more) = asked effects ++ asked more :=
  List.filterMap_append

theorem asksFor_append (direction : Direction) :
    asksFor direction (effects ++ more) = asksFor direction effects ++ asksFor direction more := by
  rw [asksFor, asked_append, List.filterMap_append]
  rfl

theorem offers_append : offers (effects ++ more) = offers effects ++ offers more :=
  List.filterMap_append

theorem notifications_append :
    notifications (effects ++ more) = notifications effects + notifications more :=
  List.count_append

end Effect

end TimedBridge
