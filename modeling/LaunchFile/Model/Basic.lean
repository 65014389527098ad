import LaunchFile.Effect

/-!
# Model/Basic — what a launch file amounts to

The nodes, the parameters, the commands to the parameter server, the machines and the arguments of a
launch file. A parameter that is set again moves to the end with its new value, so that names stay
distinct; a node lists the parameters below its name.
-/

namespace LaunchFile

/-- An argument of the top-level file. -/
structure ArgValue where
  value : Option String
  origin : ArgOrigin
  doc : Option String
  deriving DecidableEq, Repr

/-- What a launch file amounts to. -/
structure Model where
  nodes : List NodeSpec
  parameters : List ParamSpec
  commands : List RosparamCommand
  machines : List MachineSpec
  args : Dict ArgValue
  deriving Inhabited

namespace Model

/-- The model before anything is recorded. -/
def empty : Model :=
  ⟨[], [], [], [], .empty⟩

/-! ## Recording -/

/-- A setting takes the place of an earlier one of its name, which is dropped. -/
def withParam (parameters : List ParamSpec) (spec : ParamSpec) : List ParamSpec :=
  parameters.filter (·.name != spec.name) ++ [spec]

/-- The model with a parameter set, also if it was set before. -/
def setParam (m : Model) (spec : ParamSpec) : Model :=
  { m with parameters := withParam m.parameters spec }

/-- The model with one more command at the end. -/
def pushCommand (m : Model) (command : RosparamCommand) : Model :=
  { m with commands := m.commands ++ [command] }

/-- The model with one more node at the end. -/
def pushNode (m : Model) (spec : NodeSpec) : Model :=
  { m with nodes := m.nodes ++ [spec] }

/-- Declare a machine; declaring it again the same way changes nothing. -/
def addMachine (m : Model) (spec : MachineSpec) : Result Model := do
  if ← MachineSpec.isNew m.machines spec then return { m with machines := m.machines ++ [spec] }
  else return m

/-- Record the arguments that a scope has bound. -/
def recordArgs (m : Model) (args : Dict ArgBinding) : Model :=
  { m with args := args.entries.foldl (fun found (name, binding) =>
      found.insert name ⟨binding.value, binding.origin, binding.doc⟩) m.args }

/-- The names of the parameters below the name of a node. -/
def paramsBelow (parameters : List ParamSpec) (node : String) : List String :=
  (parameters.map ParamSpec.name).filter (GraphName.isBelow node)

/-- Let every node list its parameters; this comes last, so that it sees all of them. -/
def attachParams (m : Model) : Model :=
  { m with nodes := m.nodes.map fun n => { n with params := paramsBelow m.parameters n.name } }

/-! ## Look-up -/

def param? (m : Model) (name : String) : Option ParamSpec :=
  m.parameters.find? (·.name == name)

def node? (m : Model) (name : String) : Option NodeSpec :=
  m.nodes.find? (·.name == name)

def machine? (m : Model) (name : String) : Option MachineSpec :=
  MachineSpec.find? m.machines name

def tests (m : Model) : List NodeSpec :=
  m.nodes.filter NodeSpec.isTest

/-! ## From a log -/

/-- What a log amounts to, given the arguments of the top-level file. -/
def ofLog (log : Log) (args : Dict ArgBinding) : Model :=
  let m : Model := ⟨log.nodes, log.params.foldl withParam [], log.commands, log.machines, .empty⟩
  (m.recordArgs args).attachParams

end Model
end LaunchFile
