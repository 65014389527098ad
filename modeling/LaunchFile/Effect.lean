import LaunchFile.Node

/-!
# Effect — what a run records

Interpreting a launch file leaves a log of effects in document order: settings of parameters,
commands, machines and nodes. The log keeps settings that later ones take the place of; what they
amount to is the model.
-/

namespace LaunchFile

inductive Effect where
  | param (spec : ParamSpec)
  | rosparam (command : RosparamCommand)
  | machine (spec : MachineSpec)
  | node (spec : NodeSpec)
  deriving Inhabited

/-- Effects in the order in which they came. -/
abbrev Log := List Effect

namespace Effect

def param? : Effect → Option ParamSpec
  | .param spec => some spec
  | _ => none

def rosparam? : Effect → Option RosparamCommand
  | .rosparam command => some command
  | _ => none

def machine? : Effect → Option MachineSpec
  | .machine spec => some spec
  | _ => none

def node? : Effect → Option NodeSpec
  | .node spec => some spec
  | _ => none

end Effect

namespace Log

/-- All settings, also those that do not last. -/
def params (log : Log) : List ParamSpec :=
  log.filterMap Effect.param?

def commands (log : Log) : List RosparamCommand :=
  log.filterMap Effect.rosparam?

def machines (log : Log) : List MachineSpec :=
  log.filterMap Effect.machine?

def nodes (log : Log) : List NodeSpec :=
  log.filterMap Effect.node?

end Log
end LaunchFile
