/-!
# Node kinds

Which kinds of nodes a grammar uses for functions, loops, conditionals and so on. A kind may be
listed under several headings: a lambda is also a function.
-/

namespace CodeProfile

/-- The node kinds of a grammar, by what they stand for. -/
structure NodeKinds where
  functions : List String
  /-- Functions that are values without a name of their own. -/
  lambdas : List String
  classes : List String
  /-- Nodes in which a function is a method. -/
  methodScopes : List String
  /-- Clauses that name a parent of a class. -/
  inheritance : List String
  loops : List String
  conditionals : List String
  /-- Further ways through a conditional or a guarded block. -/
  branches : List String
  calls : List String
  returns : List String
  breaks : List String
  continues : List String
  allocations : List String
  assignments : List String
  /-- Changes of a variable in place. -/
  updates : List String
  declarations : List String
  /-- Expressions that stand as statements. -/
  expressions : List String
  imports : List String
  comments : List String
  deriving Repr

namespace NodeKinds

def isFunction (k : NodeKinds) (kind : String) : Bool := k.functions.contains kind

def isLoop (k : NodeKinds) (kind : String) : Bool := k.loops.contains kind

def isConditional (k : NodeKinds) (kind : String) : Bool := k.conditionals.contains kind

def isClass (k : NodeKinds) (kind : String) : Bool := k.classes.contains kind

def isComment (k : NodeKinds) (kind : String) : Bool := k.comments.contains kind

/-- Whether the node changes a variable. -/
def isMutation (k : NodeKinds) (kind : String) : Bool :=
  k.assignments.contains kind || k.updates.contains kind

end NodeKinds

/-- The node kinds of JavaScript and TypeScript. -/
def javaScriptKinds : NodeKinds :=
  { functions :=
      ["function_declaration", "function_expression", "function", "arrow_function",
       "method_definition", "generator_function_declaration", "generator_function"]
    lambdas := ["arrow_function", "function_expression", "function"]
    classes := ["class_declaration", "class", "abstract_class_declaration"]
    methodScopes := ["class_body"]
    inheritance := ["class_heritage"]
    loops := ["for_statement", "for_in_statement", "while_statement", "do_statement"]
    conditionals := ["if_statement", "switch_statement", "ternary_expression"]
    branches := ["switch_case", "catch_clause"]
    calls := ["call_expression"]
    returns := ["return_statement"]
    breaks := ["break_statement"]
    continues := ["continue_statement"]
    allocations := ["array", "object", "new_expression"]
    assignments := ["assignment_expression", "augmented_assignment_expression"]
    updates := ["update_expression"]
    declarations := ["lexical_declaration", "variable_declaration"]
    expressions := ["expression_statement"]
    imports := ["import_statement"]
    comments := ["comment"] }

/-- The node kinds of Python. -/
def pythonKinds : NodeKinds :=
  { functions := ["function_definition", "lambda"]
    lambdas := ["lambda"]
    classes := ["class_definition"]
    methodScopes := ["class_definition"]
    inheritance := []
    loops := ["for_statement", "while_statement", "for_in_clause"]
    conditionals := ["if_statement", "conditional_expression", "match_statement"]
    branches := ["elif_clause", "except_clause", "case_clause"]
    calls := ["call"]
    returns := ["return_statement"]
    breaks := ["break_statement"]
    continues := ["continue_statement"]
    allocations :=
      ["list", "dictionary", "set", "list_comprehension", "dictionary_comprehension",
       "set_comprehension"]
    assignments := ["assignment", "augmented_assignment"]
    updates := []
    declarations := ["global_statement", "nonlocal_statement"]
    expressions := ["expression_statement"]
    imports := ["import_statement", "import_from_statement"]
    comments := ["comment"] }

/-- The node kinds of Go. -/
def goKinds : NodeKinds :=
  { functions := ["function_declaration", "method_declaration", "func_literal"]
    lambdas := ["func_literal"]
    classes := ["struct_type", "interface_type"]
    methodScopes := []
    inheritance := []
    loops := ["for_statement"]
    conditionals :=
      ["if_statement", "expression_switch_statement", "type_switch_statement", "select_statement"]
    branches := ["expression_case", "type_case", "communication_case"]
    calls := ["call_expression"]
    returns := ["return_statement"]
    breaks := ["break_statement"]
    continues := ["continue_statement"]
    allocations := ["composite_literal"]
    assignments := ["assignment_statement"]
    updates := ["inc_statement", "dec_statement"]
    declarations := ["short_var_declaration", "var_declaration", "const_declaration"]
    expressions := ["expression_statement"]
    imports := ["import_declaration"]
    comments := ["comment"] }

/-- The node kinds of Java. -/
def javaKinds : NodeKinds :=
  { functions := ["method_declaration", "constructor_declaration", "lambda_expression"]
    lambdas := ["lambda_expression"]
    classes :=
      ["class_declaration", "interface_declaration", "enum_declaration", "record_declaration"]
    methodScopes := ["class_body", "interface_body", "enum_body"]
    inheritance := ["superclass", "super_interfaces"]
    loops := ["for_statement", "enhanced_for_statement", "while_statement", "do_statement"]
    conditionals :=
      ["if_statement", "switch_expression", "switch_statement", "ternary_expression"]
    branches := ["switch_label", "catch_clause"]
    calls := ["method_invocation"]
    returns := ["return_statement"]
    breaks := ["break_statement"]
    continues := ["continue_statement"]
    allocations :=
      ["array_creation_expression", "object_creation_expression", "array_initializer"]
    assignments := ["assignment_expression"]
    updates := ["update_expression"]
    declarations := ["local_variable_declaration", "field_declaration"]
    expressions := ["expression_statement"]
    imports := ["import_declaration"]
    comments := ["line_comment", "block_comment"] }

/-- The node kinds of Rust. -/
def rustKinds : NodeKinds :=
  { functions := ["function_item", "closure_expression"]
    lambdas := ["closure_expression"]
    classes := ["struct_item", "trait_item"]
    methodScopes := ["impl_item", "trait_item"]
    inheritance := []
    loops := ["for_expression", "while_expression", "loop_expression"]
    conditionals := ["if_expression", "match_expression"]
    branches := ["match_arm", "try_expression"]
    calls := ["call_expression", "macro_invocation"]
    returns := ["return_expression"]
    breaks := ["break_expression"]
    continues := ["continue_expression"]
    allocations := ["array_expression"]
    assignments := ["assignment_expression", "compound_assignment_expr"]
    updates := []
    declarations := ["let_declaration"]
    expressions := ["expression_statement"]
    imports := ["use_declaration", "extern_crate_declaration"]
    comments := ["line_comment", "block_comment"] }

/-- The node kinds of C. -/
def cKinds : NodeKinds :=
  { functions := ["function_definition"]
    lambdas := []
    classes := ["struct_specifier"]
    methodScopes := []
    inheritance := []
    loops := ["for_statement", "while_statement", "do_statement"]
    conditionals := ["if_statement", "switch_statement", "conditional_expression"]
    branches := ["case_statement"]
    calls := ["call_expression"]
    returns := ["return_statement"]
    breaks := ["break_statement"]
    continues := ["continue_statement"]
    allocations := ["initializer_list"]
    assignments := ["assignment_expression"]
    updates := ["update_expression"]
    declarations := ["declaration"]
    expressions := ["expression_statement"]
    imports := ["preproc_include"]
    comments := ["comment"] }

end CodeProfile
