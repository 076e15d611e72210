import LayerPingPong.TwoWay.CommandLine
import LayerPingPong.TwoWay.Duration

/-!
# From the command line to the files

`main` reads the parameters, starts a thread for each process that they ask for, and waits for them.
What it does is a function of the settings that the command line spells and of the latencies that
the processes have measured.
-/

namespace LayerPingPong.TwoWay

open TransitionSystem

/-- The threads that are started, in this order, or the line that is printed instead. -/
def Params.processes (params : Params) : Except String (List Process) :=
  if params.type = "intra" then .ok [.pong, .ping]
  else if params.type = "inter" then
    if params.side = "ping" then .ok [.ping]
    else if params.side = "pong" then .ok [.pong]
    else .error "side is not either ping/pong."
  else .error "type is not either intra/inter."

end LayerPingPong.TwoWay
