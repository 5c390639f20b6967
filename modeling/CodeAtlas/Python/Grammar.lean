import CodeAtlas.Grammar.Rule
import CodeAtlas.Text.Identifier

/-!
# CodeAtlas.Python.Grammar

The grammar of Python sources, old and new: it knows the `print` and `exec`
statements of the second version of the language as well as `match` and type
parameters of the third.

1. line ends, indentation and the parts of a string come from the scanner of
   `CodeAtlas.Python.Layout`, as tokens without a pattern;
2. `print`, `exec`, `async`, `await`, `type` and `match` are keywords only where
   a statement or expression that starts with them can stand;
3. a target of an assignment and an expression are told apart by what follows,
   so both readings are kept until then.
-/

namespace CodeAtlas.Python

open CodeAtlas.Grammar
open CodeAtlas.Grammar.Rule
open CodeAtlas.Text

instance : Coe String Rule := ⟨Rule.ref⟩

/-! ## Binding strength of operators -/

namespace Level

def lambda : Int := -2
def typedParameter : Int := -1
def conditional : Int := -1
def parenthesized : Int := 1
def or : Int := 10
def and : Int := 11
def not : Int := 12
def compare : Int := 13
def bitwiseOr : Int := 14
def bitwiseAnd : Int := 15
def xor : Int := 16
def shift : Int := 17
def plus : Int := 18
def times : Int := 19
def unary : Int := 20
def power : Int := 21
def call : Int := 22

end Level

/-- One or more items between commas. -/
def commaSep (r : Rule) : Rule := sepBy r (text ",")

def optComma : Rule := opt (text ",")

/-! ## Files and simple statements -/

def simpleStatementRules : List (String × Rule) := [
  ("module", any "_statement"),
  ("_statement", choice ["_simple_statements", "_compound_statement"]),
  ("_simple_statements",
    seq [sepBy "_simple_statement" (text ";"), opt (text ";"), "_newline"]),
  ("_simple_statement", choice [
    "future_import_statement", "import_statement", "import_from_statement", "print_statement",
    "assert_statement", "expression_statement", "return_statement", "delete_statement",
    "raise_statement", "pass_statement", "break_statement", "continue_statement",
    "global_statement", "nonlocal_statement", "exec_statement", "type_alias_statement"]),
  ("import_statement", seq [text "import", "_import_list"]),
  ("import_prefix", many (text ".")),
  ("relative_import", seq ["import_prefix", opt "dotted_name"]),
  ("future_import_statement", seq [text "from", text "__future__", text "import",
    choice ["_import_list", seq [text "(", "_import_list", text ")"]]]),
  ("import_from_statement", seq [text "from",
    field "module_name" (choice ["relative_import", "dotted_name"]), text "import",
    choice ["wildcard_import", "_import_list", seq [text "(", "_import_list", text ")"]]]),
  ("_import_list",
    seq [commaSep (field "name" (choice ["dotted_name", "aliased_import"])), optComma]),
  ("aliased_import", seq [field "name" "dotted_name", text "as", field "alias" "identifier"]),
  ("wildcard_import", text "*"),
  ("print_statement", choice [
    prec 1 (seq [text "print", "chevron", any (seq [text ",", field "argument" "expression"]),
      optComma]),
    prec (-3) (dynamic (-1)
      (seq [text "print", commaSep (field "argument" "expression"), optComma]))]),
  ("chevron", seq [text ">>", "expression"]),
  ("assert_statement", seq [text "assert", commaSep "expression"]),
  ("expression_statement", choice [
    "expression", seq [commaSep "expression", optComma], "assignment", "augmented_assignment",
    "yield"]),
  ("named_expression",
    seq [field "name" "_named_expression_lhs", text ":=", field "value" "expression"]),
  ("_named_expression_lhs", choice ["identifier", "keyword_identifier"]),
  ("return_statement", seq [text "return", opt "_expressions"]),
  ("delete_statement", seq [text "del", "_expressions"]),
  ("_expressions", choice ["expression", "expression_list"]),
  ("raise_statement", seq [text "raise", opt "_expressions",
    opt (seq [text "from", field "cause" "expression"])]),
  ("pass_statement", precLeft 0 (text "pass")),
  ("break_statement", precLeft 0 (text "break")),
  ("continue_statement", precLeft 0 (text "continue"))]

/-! ## Compound statements -/

def compoundStatementRules : List (String × Rule) := [
  ("_compound_statement", choice [
    "if_statement", "for_statement", "while_statement", "try_statement", "with_statement",
    "function_definition", "class_definition", "decorated_definition", "match_statement"]),
  ("if_statement", seq [text "if", field "condition" "expression", text ":",
    field "consequence" "_suite", any (field "alternative" "elif_clause"),
    opt (field "alternative" "else_clause")]),
  ("elif_clause", seq [text "elif", field "condition" "expression", text ":",
    field "consequence" "_suite"]),
  ("else_clause", seq [text "else", text ":", field "body" "_suite"]),
  ("match_statement", seq [text "match", commaSep (field "subject" "expression"), optComma,
    text ":", field "body" (as "block" "_match_block")]),
  ("_match_block", choice [
    seq ["_indent", any (field "alternative" "case_clause"), "_dedent"], "_newline"]),
  ("case_clause", seq [text "case", commaSep "case_pattern", optComma,
    opt (field "guard" "if_clause"), text ":", field "consequence" "_suite"]),
  ("for_statement", seq [opt (text "async"), text "for", field "left" "_left_hand_side",
    text "in", field "right" "_expressions", text ":", field "body" "_suite",
    field "alternative" (opt "else_clause")]),
  ("while_statement", seq [text "while", field "condition" "expression", text ":",
    field "body" "_suite", opt (field "alternative" "else_clause")]),
  ("try_statement", seq [text "try", text ":", field "body" "_suite", choice [
    seq [many "except_clause", opt "else_clause", opt "finally_clause"],
    seq [many "except_group_clause", opt "else_clause", opt "finally_clause"],
    "finally_clause"]]),
  ("except_clause", seq [text "except",
    opt (seq ["expression", opt (seq [choice [text "as", text ","], "expression"])]),
    text ":", "_suite"]),
  ("except_group_clause", seq [text "except*",
    seq ["expression", opt (seq [text "as", "expression"])], text ":", "_suite"]),
  ("finally_clause", seq [text "finally", text ":", "_suite"]),
  ("with_statement", seq [opt (text "async"), text "with", "with_clause", text ":",
    field "body" "_suite"]),
  ("with_clause", choice [
    seq [commaSep "with_item", optComma],
    seq [text "(", commaSep "with_item", optComma, text ")"]]),
  ("with_item", dynamic 1 (seq [field "value" "expression"])),
  ("function_definition", seq [opt (text "async"), text "def", field "name" "identifier",
    field "type_parameters" (opt "type_parameter"), field "parameters" "parameters",
    opt (seq [text "->", field "return_type" "type"]), text ":", field "body" "_suite"]),
  ("parameters", seq [text "(", opt "_parameters", text ")"]),
  ("lambda_parameters", "_parameters"),
  ("list_splat", seq [text "*", "expression"]),
  ("dictionary_splat", seq [text "**", "expression"]),
  ("global_statement", seq [text "global", commaSep "identifier"]),
  ("nonlocal_statement", seq [text "nonlocal", commaSep "identifier"]),
  ("exec_statement", seq [text "exec", field "code" (choice ["string", "identifier"]),
    opt (seq [text "in", commaSep "expression"])]),
  ("type_alias_statement", dynamic 1
    (seq [text "type", field "left" "type", text "=", field "right" "type"])),
  ("class_definition", seq [text "class", field "name" "identifier",
    field "type_parameters" (opt "type_parameter"),
    field "superclasses" (opt "argument_list"), text ":", field "body" "_suite"]),
  ("type_parameter", seq [text "[", commaSep "type", optComma, text "]"]),
  ("parenthesized_list_splat", prec Level.parenthesized (seq [text "(",
    choice [as "parenthesized_expression" "parenthesized_list_splat", "list_splat"], text ")"])),
  ("argument_list", seq [text "(",
    opt (commaSep (choice ["expression", "list_splat", "dictionary_splat",
      as "parenthesized_expression" "parenthesized_list_splat", "keyword_argument"])),
    optComma, text ")"]),
  ("decorated_definition", seq [many "decorator",
    field "definition" (choice ["class_definition", "function_definition"])]),
  ("decorator", seq [text "@", "expression", "_newline"]),
  ("_suite", choice [
    as "block" "_simple_statements", seq ["_indent", "block"], as "block" "_newline"]),
  ("block", seq [any "_statement", "_dedent"]),
  ("expression_list", precRight 0 (seq ["expression", choice [text ",",
    seq [many (seq [text ",", "expression"]), optComma]]])),
  ("dotted_name", prec 1 (sepBy "identifier" (text ".")))]

/-! ## Patterns of `match` -/

def casePatternRules : List (String × Rule) := [
  ("case_pattern", prec 1 (choice [
    as "as_pattern" "_as_pattern", "keyword_pattern", "_simple_pattern"])),
  ("_simple_pattern", prec 1 (choice [
    "class_pattern", "splat_pattern", "union_pattern", as "list_pattern" "_list_pattern",
    as "tuple_pattern" "_tuple_pattern", "dict_pattern", "string", "concatenated_string",
    "true", "false", "none", seq [opt (text "-"), choice ["integer", "float"]],
    "complex_pattern", "dotted_name", text "_"])),
  ("_as_pattern", seq ["case_pattern", text "as", "identifier"]),
  ("union_pattern", precRight 0
    (seq ["_simple_pattern", many (precLeft 0 (seq [text "|", "_simple_pattern"]))])),
  ("_list_pattern", seq [text "[", opt (seq [commaSep "case_pattern", optComma]), text "]"]),
  ("_tuple_pattern", seq [text "(", opt (seq [commaSep "case_pattern", optComma]), text ")"]),
  ("dict_pattern", seq [text "\x7b",
    opt (seq [commaSep (choice ["_key_value_pattern", "splat_pattern"]), optComma]),
    text "\x7d"]),
  ("_key_value_pattern",
    seq [field "key" "_simple_pattern", text ":", field "value" "case_pattern"]),
  ("keyword_pattern", seq ["identifier", text "=", "_simple_pattern"]),
  ("splat_pattern", prec 1
    (seq [choice [text "*", text "**"], choice ["identifier", text "_"]])),
  ("class_pattern", seq ["dotted_name", text "(",
    opt (seq [commaSep "case_pattern", optComma]), text ")"]),
  ("complex_pattern", prec 1 (seq [opt (text "-"), choice ["integer", "float"],
    choice [text "+", text "-"], choice ["integer", "float"]]))]

/-! ## Parameters and assignment targets -/

def patternRules : List (String × Rule) := [
  ("_parameters", seq [commaSep "parameter", optComma]),
  ("_patterns", seq [commaSep "pattern", optComma]),
  ("parameter", choice ["identifier", "typed_parameter", "default_parameter",
    "typed_default_parameter", "list_splat_pattern", "tuple_pattern", "keyword_separator",
    "positional_separator", "dictionary_splat_pattern"]),
  ("pattern", choice ["identifier", "keyword_identifier", "subscript", "attribute",
    "list_splat_pattern", "tuple_pattern", "list_pattern"]),
  ("tuple_pattern", seq [text "(", opt "_patterns", text ")"]),
  ("list_pattern", seq [text "[", opt "_patterns", text "]"]),
  ("default_parameter", seq [field "name" (choice ["identifier", "tuple_pattern"]), text "=",
    field "value" "expression"]),
  ("typed_default_parameter", prec Level.typedParameter (seq [field "name" "identifier",
    text ":", field "type" "type", text "=", field "value" "expression"])),
  ("list_splat_pattern", seq [text "*",
    choice ["identifier", "keyword_identifier", "subscript", "attribute"]]),
  ("dictionary_splat_pattern", seq [text "**",
    choice ["identifier", "keyword_identifier", "subscript", "attribute"]]),
  ("as_pattern", precLeft 0 (seq ["expression", text "as",
    field "alias" (as "as_pattern_target" "expression")]))]

/-! ## Expressions -/

/-- The binary operators: text, binding strength, and the side on which equal
ones group. -/
def binaryOperators : List (String × Int × Associativity) := [
  ("+", Level.plus, .left), ("-", Level.plus, .left), ("*", Level.times, .left),
  ("@", Level.times, .left), ("/", Level.times, .left), ("%", Level.times, .left),
  ("//", Level.times, .left), ("**", Level.power, .right), ("|", Level.bitwiseOr, .left),
  ("&", Level.bitwiseAnd, .left), ("^", Level.xor, .left), ("<<", Level.shift, .left),
  (">>", Level.shift, .left)]

def expressionRules : List (String × Rule) := [
  ("_expression_within_for_in_clause",
    choice ["expression", as "lambda" "lambda_within_for_in_clause"]),
  ("expression", choice ["comparison_operator", "not_operator", "boolean_operator", "lambda",
    "primary_expression", "conditional_expression", "named_expression", "as_pattern"]),
  ("primary_expression", choice ["await", "binary_operator", "identifier",
    "keyword_identifier", "string", "concatenated_string", "integer", "float", "true", "false",
    "none", "unary_operator", "attribute", "subscript", "call", "list", "list_comprehension",
    "dictionary", "dictionary_comprehension", "set", "set_comprehension", "tuple",
    "parenthesized_expression", "generator_expression", "ellipsis",
    as "list_splat" "list_splat_pattern"]),
  ("not_operator", prec Level.not (seq [text "not", field "argument" "expression"])),
  ("boolean_operator", choice [
    precLeft Level.and (seq [field "left" "expression", field "operator" (text "and"),
      field "right" "expression"]),
    precLeft Level.or (seq [field "left" "expression", field "operator" (text "or"),
      field "right" "expression"])]),
  ("binary_operator", choice (binaryOperators.map fun (operator, level, assoc) =>
    precedence level (some assoc) (seq [field "left" "primary_expression",
      field "operator" (text operator), field "right" "primary_expression"]))),
  ("unary_operator", prec Level.unary (seq [
    field "operator" (choice [text "+", text "-", text "~"]),
    field "argument" "primary_expression"])),
  ("_not_in", seq [text "not", text "in"]),
  ("_is_not", seq [text "is", text "not"]),
  ("comparison_operator", precLeft Level.compare (seq ["primary_expression",
    many (seq [field "operators" (choice [text "<", text "<=", text "==", text "!=", text ">=",
      text ">", text "<>", text "in", asText "not in" "_not_in", text "is",
      asText "is not" "_is_not"]), "primary_expression"])])),
  ("lambda", prec Level.lambda (seq [text "lambda",
    field "parameters" (opt "lambda_parameters"), text ":", field "body" "expression"])),
  ("lambda_within_for_in_clause", seq [text "lambda",
    field "parameters" (opt "lambda_parameters"), text ":",
    field "body" "_expression_within_for_in_clause"]),
  ("assignment", seq [field "left" "_left_hand_side", choice [
    seq [text "=", field "right" "_right_hand_side"],
    seq [text ":", field "type" "type"],
    seq [text ":", field "type" "type", text "=", field "right" "_right_hand_side"]]]),
  ("augmented_assignment", seq [field "left" "_left_hand_side",
    field "operator" (choice [text "+=", text "-=", text "*=", text "/=", text "@=", text "//=",
      text "%=", text "**=", text ">>=", text "<<=", text "&=", text "^=", text "|="]),
    field "right" "_right_hand_side"]),
  ("_left_hand_side", choice ["pattern", "pattern_list"]),
  ("pattern_list", seq ["pattern", choice [text ",",
    seq [many (seq [text ",", "pattern"]), optComma]]]),
  ("_right_hand_side", choice ["expression", "expression_list", "assignment",
    "augmented_assignment", "pattern_list", "yield"]),
  ("yield", precRight 0 (seq [text "yield", choice [
    seq [text "from", "expression"], opt "_expressions"]])),
  ("attribute", prec Level.call (seq [field "object" "primary_expression", text ".",
    field "attribute" "identifier"])),
  ("subscript", prec Level.call (seq [field "value" "primary_expression", text "[",
    commaSep (field "subscript" (choice ["expression", "slice"])), optComma, text "]"])),
  ("slice", seq [opt "expression", text ":", opt "expression",
    opt (seq [text ":", opt "expression"])]),
  ("ellipsis", text "..."),
  ("call", prec Level.call (seq [field "function" "primary_expression",
    field "arguments" (choice ["generator_expression", "argument_list"])])),
  ("typed_parameter", prec Level.typedParameter (seq [
    choice ["identifier", "list_splat_pattern", "dictionary_splat_pattern"], text ":",
    field "type" "type"])),
  ("type", choice [prec 1 "expression", "splat_type", "generic_type", "union_type",
    "constrained_type", "member_type"]),
  ("splat_type", prec 1 (seq [choice [text "*", text "**"], "identifier"])),
  ("generic_type", prec 1 (seq [choice ["identifier", as "identifier" (text "type")],
    "type_parameter"])),
  ("union_type", precLeft 0 (seq ["type", text "|", "type"])),
  ("constrained_type", precRight 0 (seq ["type", text ":", "type"])),
  ("member_type", seq ["type", text ".", "identifier"]),
  ("keyword_argument", seq [field "name" (choice ["identifier", "keyword_identifier"]),
    text "=", field "value" "expression"])]

/-! ## Displays and comprehensions -/

def displayRules : List (String × Rule) := [
  ("list", seq [text "[", opt "_collection_elements", text "]"]),
  ("set", seq [text "\x7b", "_collection_elements", text "\x7d"]),
  ("tuple", seq [text "(", opt "_collection_elements", text ")"]),
  ("dictionary", seq [text "\x7b", opt (commaSep (choice ["pair", "dictionary_splat"])),
    optComma, text "\x7d"]),
  ("pair", seq [field "key" "expression", text ":", field "value" "expression"]),
  ("list_comprehension",
    seq [text "[", field "body" "expression", "_comprehension_clauses", text "]"]),
  ("dictionary_comprehension",
    seq [text "\x7b", field "body" "pair", "_comprehension_clauses", text "\x7d"]),
  ("set_comprehension",
    seq [text "\x7b", field "body" "expression", "_comprehension_clauses", text "\x7d"]),
  ("generator_expression",
    seq [text "(", field "body" "expression", "_comprehension_clauses", text ")"]),
  ("_comprehension_clauses", seq ["for_in_clause", any (choice ["for_in_clause", "if_clause"])]),
  ("parenthesized_expression", prec Level.parenthesized
    (seq [text "(", choice ["expression", "yield"], text ")"])),
  ("_collection_elements", seq [
    commaSep (choice ["expression", "yield", "list_splat", "parenthesized_list_splat"]),
    optComma]),
  ("for_in_clause", precLeft 0 (seq [opt (text "async"), text "for",
    field "left" "_left_hand_side", text "in",
    field "right" (commaSep "_expression_within_for_in_clause"), optComma])),
  ("if_clause", seq [text "if", "expression"]),
  ("conditional_expression", precRight Level.conditional
    (seq ["expression", text "if", "expression", text "else", "expression"]))]

/-! ## Strings, numbers and names -/

/-- Digits with single underscores after any of them. -/
def digits : Pattern := .plus (.seq (.plus (.between '0' '9')) (.opt (.oneOf "_")))

/-- Digits of another base, each group after an optional underscore. -/
def based (marks : String) (digit : String) : Pattern :=
  .seqs [.oneOf "0", .oneOf marks, .plus (.seq (.opt (.oneOf "_")) (.plus (.oneOf digit))),
    .opt (.oneOf "Ll")]

def hexDigit : Pattern := .oneOf "0123456789abcdefABCDEF"

def decimalDigit : Pattern := .between '0' '9'

def exponent : Pattern := .seqs [.oneOf "eE", .opt (.oneOf "+-"), digits]

def literalRules : List (String × Rule) := [
  ("concatenated_string", seq ["string", many "string"]),
  ("string", seq ["string_start", any (choice ["interpolation", "string_content"]),
    "string_end"]),
  ("string_content", precRight 0 (many (choice [
    "escape_interpolation", "escape_sequence", "_not_escape_sequence", "_string_content"]))),
  ("interpolation", seq [text "\x7b", field "expression" "_f_expression", opt (text "="),
    opt (field "type_conversion" "type_conversion"),
    opt (field "format_specifier" "format_specifier"), text "\x7d"]),
  ("_f_expression", choice ["expression", "expression_list", "pattern_list", "yield"]),
  ("escape_sequence", immediate (.seqs [.oneOf "\\", .alts [
      .seq (.oneOf "u") (.times 4 hexDigit), .seq (.oneOf "U") (.times 8 hexDigit),
      .seq (.oneOf "x") (.times 2 hexDigit), .upTo 2 decimalDigit,
      .seq (.opt (.oneOf "\r")) (.oneOf "\n"), .oneOf "'\"abfrntv\\",
      .seqs [.oneOf "N", .oneOf "\x7b", .plus (.noneOf "\x7d"), .oneOf "\x7d"]]]) 1),
  ("_not_escape_sequence", immediateText "\\"),
  ("format_specifier", seq [text ":", any (choice [
    pattern (.plus (.noneOf "\x7b\x7d\n")) 1,
    as "format_expression" "interpolation"])]),
  ("type_conversion", pattern (.seq (.oneOf "!") (.between 'a' 'z'))),
  ("integer", pattern (.alts [
    based "xX" "0123456789abcdefABCDEF", based "oO" "01234567", based "bB" "01",
    .seq digits (.alt (.opt (.oneOf "Ll")) (.opt (.oneOf "jJ")))])),
  ("float", pattern (.seq (.alts [
      .seqs [digits, .oneOf ".", .opt digits, .opt exponent],
      .seqs [.opt digits, .oneOf ".", digits, .opt exponent],
      .seq digits exponent])
    (.opt (.oneOf "jJ")))),
  ("identifier", pattern (.seq
    (.chars (Identifier.xidStart.union (.single '_')))
    (.star (.chars (Identifier.xidContinue.union (.single '_')))))),
  ("keyword_identifier", choice [
    prec (-3) (as "identifier" (choice [text "print", text "exec", text "async", text "await"])),
    as "identifier" (choice [text "type", text "match"])]),
  ("true", text "True"),
  ("false", text "False"),
  ("none", text "None"),
  ("await", prec Level.unary (seq [text "await", "primary_expression"])),
  ("comment", pattern (.seq (.oneOf "#") (.star (.noneOf "\n")))),
  ("line_continuation", pattern (.seq (.oneOf "\\")
    (.alt (.seq (.opt (.oneOf "\r")) (.oneOf "\n")) (.oneOf "\x00"))) 1),
  ("positional_separator", text "/"),
  ("keyword_separator", text "*")]

/-- The grammar of a Python file. -/
def grammar : RuleSet where
  rules := simpleStatementRules ++ compoundStatementRules ++ casePatternRules ++ patternRules ++
    expressionRules ++ displayRules ++ literalRules
  blanks := .ofString " \t\r\n\x0b\x0c\ufeff\u2060\u200b"
  extras := ["comment", "line_continuation"]
  externals := [.named "_newline", .named "_indent", .named "_dedent", .named "string_start",
    .named "_string_content", .named "escape_interpolation", .named "string_end",
    .named "comment", .text "]", .text ")", .text "\x7d", .text "except"]
  inlined := ["_simple_statement", "_compound_statement", "_suite", "_expressions",
    "_left_hand_side", "keyword_identifier"]
  families := ["_simple_statement", "_compound_statement", "expression", "primary_expression",
    "pattern", "parameter"]
  word := some "identifier"

end CodeAtlas.Python
