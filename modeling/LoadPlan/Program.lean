/-! How the program names itself. -/
namespace LoadPlan.Program

def name : String := "jmxforge"

def version : String := "0.1.0"

end LoadPlan.Program
