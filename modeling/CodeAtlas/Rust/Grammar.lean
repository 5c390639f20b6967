import CodeAtlas.Grammar.Rule
import CodeAtlas.Text.Identifier

/-!
# CodeAtlas.Rust.Grammar

The grammar of Rust sources.

1. the contents of macro calls and of attributes are trees of tokens and are not
   read further;
2. names of types, fields and values are the same token, shown under the name of
   their role;
3. raw strings, numbers with a point, and the contents of comments come from the
   scanner of `CodeAtlas.Rust.Scanner`;
4. a last arm of a match may go without its comma, and a statement that ends with
   a block without its semicolon.
-/

namespace CodeAtlas.Rust

open CodeAtlas.Grammar
open CodeAtlas.Grammar.Rule
open CodeAtlas.Text

instance : Coe String Rule := ⟨Rule.ref⟩

/-! ## Binding strength of operators -/

namespace Level

def call : Int := 15
def field : Int := 14
def tryMark : Int := 13
def unary : Int := 12
def cast : Int := 11
def multiplicative : Int := 10
def additive : Int := 9
def shift : Int := 8
def bitAnd : Int := 7
def bitXor : Int := 6
def bitOr : Int := 5
def comparative : Int := 4
def and : Int := 3
def or : Int := 2
def range : Int := 1
def assign : Int := 0
def closure : Int := -1

end Level

/-- Items with a separator between them, or nothing. -/
def listOf (separator : Rule) (r : Rule) : Rule := opt (sepBy r separator)

/-- Items between commas, or nothing, and perhaps a comma at the end. -/
def commaList (r : Rule) : List Rule := [listOf (text ",") r, opt (text ",")]

/-- Items between commas, and perhaps a comma at the end. -/
def commaList1 (r : Rule) : List Rule := [sepBy r (text ","), opt (text ",")]

def numericTypes : List String := ["u8", "i8", "u16", "i16", "u32", "i32", "u64", "i64", "u128",
  "i128", "isize", "usize", "f32", "f64"]

def primitiveTypes : List String := numericTypes ++ ["bool", "str", "char"]

def anyText (ts : List String) : Rule := choice (ts.map text)

/-- A primitive type shown as such, or as a name. -/
def primitiveType : Rule := as "primitive_type" (anyText primitiveTypes)

def primitiveName : Rule := as "identifier" (anyText primitiveTypes)

/-! ## Files and statements -/

def statementRules : List (String × Rule) := [
  ("source_file", seq [opt "shebang", any "_statement"]),
  ("_statement", choice ["expression_statement", "_declaration_statement"]),
  ("empty_statement", text ";"),
  ("expression_statement", choice [
    seq ["_expression", text ";"], prec 1 "_expression_ending_with_block"]),
  ("_declaration_statement", choice ["const_item", "macro_invocation", "macro_definition",
    "empty_statement", "attribute_item", "inner_attribute_item", "mod_item", "foreign_mod_item",
    "struct_item", "union_item", "enum_item", "type_item", "function_item",
    "function_signature_item", "impl_item", "trait_item", "associated_type", "let_declaration",
    "use_declaration", "extern_crate_declaration", "static_item"])]

/-! ## Macros -/

/-- Punctuation between the brackets of a macro call. -/
def punctuation : List String := [
  "+", "-", "*", "/", "%", "^", "!", "&", "|", "&&", "||", "<<", ">>", "+=", "-=", "*=", "/=",
  "%=", "^=", "&=", "|=", "<<=", ">>=", "=", "==", "!=", ">", "<", ">=", "<=", "@", "_", ".",
  "..", "...", "..=", ",", ";", ":", "::", "->", "=>", "#", "?"]

/-- A rule between brackets of any of the three kinds. -/
def bracketed (rs : List Rule) : Rule := choice [
  seq ([text "("] ++ rs ++ [text ")"]), seq ([text "["] ++ rs ++ [text "]"]),
  seq ([text "\x7b"] ++ rs ++ [text "\x7d"])]

def macroRules : List (String × Rule) :=
  let bodies := [any (seq ["macro_rule", text ";"]), opt "macro_rule"]
  let repetition (tokens : Rule) : Rule := seq [text "$", text "(", any tokens, text ")",
    opt (pattern (.plus (.noneOf "+*?"))), choice [text "+", text "*", text "?"]]
  [("macro_definition", seq [text "macro_rules!",
    field "name" (choice ["identifier", "_reserved_identifier"]), choice [
      seq ([text "("] ++ bodies ++ [text ")", text ";"]),
      seq ([text "["] ++ bodies ++ [text "]", text ";"]),
      seq ([text "\x7b"] ++ bodies ++ [text "\x7d"])]]),
  ("macro_rule", seq [field "left" "token_tree_pattern", text "=>", field "right" "token_tree"]),
  ("_token_pattern", choice ["token_tree_pattern", "token_repetition_pattern",
    "token_binding_pattern", "metavariable", "_non_special_token"]),
  ("token_tree_pattern", bracketed [any "_token_pattern"]),
  ("token_binding_pattern", prec 1
    (seq [field "name" "metavariable", text ":", field "type" "fragment_specifier"])),
  ("token_repetition_pattern", repetition "_token_pattern"),
  ("fragment_specifier", anyText ["block", "expr", "expr_2021", "ident", "item", "lifetime",
    "literal", "meta", "pat", "pat_param", "path", "stmt", "tt", "ty", "vis"]),
  ("_tokens", choice ["token_tree", "token_repetition", "metavariable", "_non_special_token"]),
  ("token_tree", bracketed [any "_tokens"]),
  ("token_repetition", repetition "_tokens"),
  ("_non_special_token", choice ["_literal", "identifier", "mutable_specifier", "self", "super",
    "crate", primitiveType, precRight 0 (many (anyText punctuation)),
    text "'", anyText ["as", "async", "await", "break", "const", "continue", "default", "enum",
      "fn", "for", "gen", "if", "impl", "let", "loop", "match", "mod", "pub", "return", "static",
      "struct", "trait", "type", "union", "unsafe", "use", "where", "while"]])]

/-! ## Items -/

def itemRules : List (String × Rule) := [
  ("attribute_item", seq [text "#", text "[", "attribute", text "]"]),
  ("inner_attribute_item", seq [text "#", text "!", text "[", "attribute", text "]"]),
  ("attribute", seq ["_path", opt (choice [
    seq [text "=", field "value" "_expression"],
    field "arguments" (as "token_tree" "delim_token_tree")])]),
  ("mod_item", seq [opt "visibility_modifier", text "mod", field "name" "identifier",
    choice [text ";", field "body" "declaration_list"]]),
  ("foreign_mod_item", seq [opt "visibility_modifier", "extern_modifier",
    choice [text ";", field "body" "declaration_list"]]),
  ("declaration_list", seq [text "\x7b", any "_declaration_statement", text "\x7d"]),
  ("struct_item", seq [opt "visibility_modifier", text "struct", field "name" "_type_identifier",
    field "type_parameters" (opt "type_parameters"), choice [
      seq [opt "where_clause", field "body" "field_declaration_list"],
      seq [field "body" "ordered_field_declaration_list", opt "where_clause", text ";"],
      text ";"]]),
  ("union_item", seq [opt "visibility_modifier", text "union", field "name" "_type_identifier",
    field "type_parameters" (opt "type_parameters"), opt "where_clause",
    field "body" "field_declaration_list"]),
  ("enum_item", seq [opt "visibility_modifier", text "enum", field "name" "_type_identifier",
    field "type_parameters" (opt "type_parameters"), opt "where_clause",
    field "body" "enum_variant_list"]),
  ("enum_variant_list", seq ([text "\x7b"] ++
    commaList (seq [any "attribute_item", "enum_variant"]) ++ [text "\x7d"])),
  ("enum_variant", seq [opt "visibility_modifier", field "name" "identifier",
    field "body" (opt (choice ["field_declaration_list", "ordered_field_declaration_list"])),
    opt (seq [text "=", field "value" "_expression"])]),
  ("field_declaration_list", seq ([text "\x7b"] ++
    commaList (seq [any "attribute_item", "field_declaration"]) ++ [text "\x7d"])),
  ("field_declaration", seq [opt "visibility_modifier", field "name" "_field_identifier",
    text ":", field "type" "_type"]),
  ("ordered_field_declaration_list", seq ([text "("] ++
    commaList (seq [any "attribute_item", opt "visibility_modifier", field "type" "_type"]) ++
    [text ")"])),
  ("extern_crate_declaration", seq [opt "visibility_modifier", text "extern", "crate",
    field "name" "identifier", opt (seq [text "as", field "alias" "identifier"]), text ";"]),
  ("const_item", seq [opt "visibility_modifier", text "const", field "name" "identifier",
    text ":", field "type" "_type", opt (seq [text "=", field "value" "_expression"]),
    text ";"]),
  ("static_item", seq [opt "visibility_modifier", text "static", opt (text "ref"),
    opt "mutable_specifier", field "name" "identifier", text ":", field "type" "_type",
    opt (seq [text "=", field "value" "_expression"]), text ";"]),
  ("type_item", seq [opt "visibility_modifier", text "type", field "name" "_type_identifier",
    field "type_parameters" (opt "type_parameters"), opt "where_clause", text "=",
    field "type" "_type", opt "where_clause", text ";"]),
  ("function_item", seq [opt "visibility_modifier", opt "function_modifiers", text "fn",
    field "name" (choice ["identifier", "metavariable"]),
    field "type_parameters" (opt "type_parameters"), field "parameters" "parameters",
    opt (seq [text "->", field "return_type" "_type"]), opt "where_clause",
    field "body" "block"]),
  ("function_signature_item", seq [opt "visibility_modifier", opt "function_modifiers",
    text "fn", field "name" (choice ["identifier", "metavariable"]),
    field "type_parameters" (opt "type_parameters"), field "parameters" "parameters",
    opt (seq [text "->", field "return_type" "_type"]), opt "where_clause", text ";"]),
  ("function_modifiers", many (choice [text "async", text "default", text "const",
    text "unsafe", "extern_modifier"])),
  ("where_clause", precRight 0 (seq [text "where", opt (seq (commaList1 "where_predicate"))])),
  ("where_predicate", seq [field "left" (choice ["lifetime", "_type_identifier",
    "scoped_type_identifier", "generic_type", "reference_type", "pointer_type", "tuple_type",
    "array_type", "higher_ranked_trait_bound", primitiveType]), field "bounds" "trait_bounds"]),
  ("impl_item", seq [opt (text "unsafe"), text "impl",
    field "type_parameters" (opt "type_parameters"),
    opt (seq [opt (text "!"), field "trait" (choice ["_type_identifier",
      "scoped_type_identifier", "generic_type"]), text "for"]),
    field "type" "_type", opt "where_clause", choice [field "body" "declaration_list", text ";"]]),
  ("trait_item", seq [opt "visibility_modifier", opt (text "unsafe"), text "trait",
    field "name" "_type_identifier", field "type_parameters" (opt "type_parameters"),
    field "bounds" (opt "trait_bounds"), opt "where_clause", field "body" "declaration_list"]),
  ("associated_type", seq [text "type", field "name" "_type_identifier",
    field "type_parameters" (opt "type_parameters"), field "bounds" (opt "trait_bounds"),
    opt "where_clause", text ";"]),
  ("trait_bounds", seq [text ":",
    sepBy (choice ["_type", "lifetime", "higher_ranked_trait_bound"]) (text "+")]),
  ("higher_ranked_trait_bound", seq [text "for", field "type_parameters" "type_parameters",
    field "type" "_type"]),
  ("removed_trait_bound", seq [text "?", "_type"]),
  ("type_parameters", prec 1 (seq ([text "<"] ++
    commaList1 (seq [any "attribute_item", choice ["metavariable", "type_parameter",
      "lifetime_parameter", "const_parameter"]]) ++ [text ">"]))),
  ("const_parameter", seq [text "const", field "name" "identifier", text ":",
    field "type" "_type", opt (seq [text "=",
      field "value" (choice ["block", "identifier", "_literal", "negative_literal"])])]),
  ("type_parameter", prec 1 (seq [field "name" "_type_identifier",
    opt (field "bounds" "trait_bounds"), opt (seq [text "=", field "default_type" "_type"])])),
  ("lifetime_parameter", prec 1 (seq [field "name" "lifetime",
    opt (field "bounds" "trait_bounds")])),
  ("let_declaration", seq [text "let", opt "mutable_specifier", field "pattern" "_pattern",
    opt (seq [text ":", field "type" "_type"]),
    opt (seq [text "=", field "value" "_expression"]),
    opt (seq [text "else", field "alternative" "block"]), text ";"]),
  ("use_declaration", seq [opt "visibility_modifier", text "use", field "argument" "_use_clause",
    text ";"]),
  ("_use_clause", choice ["_path", "use_as_clause", "use_list", "scoped_use_list",
    "use_wildcard"]),
  ("scoped_use_list", seq [field "path" (opt "_path"), text "::", field "list" "use_list"]),
  ("use_list", seq ([text "\x7b"] ++ commaList "_use_clause" ++ [text "\x7d"])),
  ("use_as_clause", seq [field "path" "_path", text "as", field "alias" "identifier"]),
  ("use_wildcard", seq [opt (seq [opt "_path", text "::"]), text "*"]),
  ("parameters", seq ([text "("] ++ commaList (seq [opt "attribute_item",
    choice ["parameter", "self_parameter", "variadic_parameter", text "_", "_type"]]) ++
    [text ")"])),
  ("self_parameter", seq [opt (text "&"), opt "lifetime", opt "mutable_specifier", "self"]),
  ("variadic_parameter", seq [opt "mutable_specifier",
    opt (seq [field "pattern" "_pattern", text ":"]), text "..."]),
  ("parameter", seq [opt "mutable_specifier", field "pattern" (choice ["_pattern", "self"]),
    text ":", field "type" "_type"]),
  ("extern_modifier", seq [text "extern", opt "string_literal"]),
  ("visibility_modifier", choice ["crate", seq [text "pub", opt (seq [text "(",
    choice ["self", "super", "crate", seq [text "in", "_path"]], text ")"])]])]

/-! ## Types -/

def typeRules : List (String × Rule) := [
  ("_type", choice ["abstract_type", "reference_type", "metavariable", "pointer_type",
    "generic_type", "scoped_type_identifier", "tuple_type", "unit_type", "array_type",
    "function_type", "_type_identifier", "macro_invocation", "never_type", "dynamic_type",
    "bounded_type", "removed_trait_bound", primitiveType]),
  ("bracketed_type", seq [text "<", choice ["_type", "qualified_type"], text ">"]),
  ("qualified_type", seq [field "type" "_type", text "as", field "alias" "_type"]),
  ("lifetime", prec 1 (seq [text "'", "identifier"])),
  ("array_type", seq [text "[", field "element" "_type",
    opt (seq [text ";", field "length" "_expression"]), text "]"]),
  ("for_lifetimes", seq ([text "for", text "<"] ++ commaList1 "lifetime" ++ [text ">"])),
  ("function_type", seq [opt "for_lifetimes", prec Level.call (seq [choice [
      field "trait" (choice ["_type_identifier", "scoped_type_identifier"]),
      seq [opt "function_modifiers", text "fn"]],
    field "parameters" "parameters"]), opt (seq [text "->", field "return_type" "_type"])]),
  ("tuple_type", seq ([text "("] ++ commaList1 "_type" ++ [text ")"])),
  ("unit_type", seq [text "(", text ")"]),
  ("generic_function", prec 1 (seq [
    field "function" (choice ["identifier", "scoped_identifier", "field_expression"]),
    text "::", field "type_arguments" "type_arguments"])),
  ("generic_type", prec 1 (seq [
    field "type" (choice ["_type_identifier", "_reserved_identifier", "scoped_type_identifier"]),
    field "type_arguments" "type_arguments"])),
  ("generic_type_with_turbofish", seq [
    field "type" (choice ["_type_identifier", "scoped_identifier"]), text "::",
    field "type_arguments" "type_arguments"]),
  ("bounded_type", precLeft (-1) (seq [choice ["lifetime", "_type", "use_bounds"], text "+",
    choice ["lifetime", "_type", "use_bounds"]])),
  ("use_bounds", seq ([text "use", .token ⟨.text "<", some "<", false, 1⟩] ++
    commaList (choice ["lifetime", "_type_identifier"]) ++ [text ">"])),
  ("type_arguments", seq ([.token ⟨.text "<", some "<", false, 1⟩] ++
    commaList1 (seq [choice ["_type", "type_binding", "lifetime", "_literal", "block"],
      opt "trait_bounds"]) ++ [text ">"])),
  ("type_binding", seq [field "name" "_type_identifier",
    field "type_arguments" (opt "type_arguments"), text "=", field "type" "_type"]),
  ("reference_type", seq [text "&", opt "lifetime", opt "mutable_specifier",
    field "type" "_type"]),
  ("pointer_type", seq [text "*", choice [text "const", "mutable_specifier"],
    field "type" "_type"]),
  ("never_type", text "!"),
  ("abstract_type", seq [text "impl", opt (seq [text "for", "type_parameters"]),
    field "trait" (prec 1 (choice ["_type_identifier", "scoped_type_identifier",
      "removed_trait_bound", "generic_type", "function_type", "tuple_type", "bounded_type"]))]),
  ("dynamic_type", seq [text "dyn", field "trait" (choice ["higher_ranked_trait_bound",
    "_type_identifier", "scoped_type_identifier", "generic_type", "function_type",
    "tuple_type"])]),
  ("mutable_specifier", text "mut")]

/-! ## Expressions -/

/-- The binary operators by binding strength. -/
def binaryOperators : List (Int × List String) := [
  (Level.and, ["&&"]), (Level.or, ["||"]), (Level.bitAnd, ["&"]), (Level.bitOr, ["|"]),
  (Level.bitXor, ["^"]), (Level.comparative, ["==", "!=", "<", "<=", ">", ">="]),
  (Level.shift, ["<<", ">>"]), (Level.additive, ["+", "-"]),
  (Level.multiplicative, ["*", "/", "%"])]

def operatorRules : List (String × Rule) := [
  ("_expression_except_range", choice ["unary_expression", "reference_expression",
    "try_expression", "binary_expression", "assignment_expression", "compound_assignment_expr",
    "type_cast_expression", "call_expression", "return_expression", "yield_expression",
    "_literal", precLeft 0 "identifier", primitiveName, precLeft 0 "_reserved_identifier", "self",
    "scoped_identifier", "generic_function", "await_expression", "field_expression",
    "array_expression", "tuple_expression", prec 1 "macro_invocation", "unit_expression",
    "break_expression", "continue_expression", "index_expression", "metavariable",
    "closure_expression", "parenthesized_expression", "struct_expression",
    "_expression_ending_with_block"]),
  ("_expression", choice ["_expression_except_range", "range_expression"]),
  ("_expression_ending_with_block", choice ["unsafe_block", "async_block", "gen_block",
    "try_block", "block", "if_expression", "match_expression", "while_expression",
    "loop_expression", "for_expression", "const_block"]),
  ("macro_invocation", seq [
    field "macro" (choice ["scoped_identifier", "identifier", "_reserved_identifier"]),
    text "!", as "token_tree" "delim_token_tree"]),
  ("delim_token_tree", bracketed [any "_delim_tokens"]),
  ("_delim_tokens", choice ["_non_delim_token", as "token_tree" "delim_token_tree"]),
  ("_non_delim_token", choice ["_non_special_token", text "$"]),
  ("scoped_identifier", seq [field "path" (opt (choice ["_path", "bracketed_type",
    as "generic_type" "generic_type_with_turbofish"])), text "::",
    field "name" (choice ["identifier", "super"])]),
  ("scoped_type_identifier_in_expression_position", prec (-2) (seq [
    field "path" (opt (choice ["_path", as "generic_type" "generic_type_with_turbofish"])),
    text "::", field "name" "_type_identifier"])),
  ("scoped_type_identifier", seq [field "path" (opt (choice ["_path",
    as "generic_type" "generic_type_with_turbofish", "bracketed_type", "generic_type"])),
    text "::", field "name" "_type_identifier"]),
  ("range_expression", precLeft Level.range (choice [
    seq ["_expression", anyText ["..", "...", "..="], "_expression"],
    seq ["_expression", text ".."], seq [text "..", "_expression"], text ".."])),
  ("unary_expression", prec Level.unary (seq [anyText ["-", "*", "!"], "_expression"])),
  ("try_expression", prec Level.tryMark (seq ["_expression", text "?"])),
  ("reference_expression", prec Level.unary (seq [text "&", choice [
    seq [text "raw", choice [text "const", "mutable_specifier"]], opt "mutable_specifier"],
    field "value" "_expression"])),
  ("binary_expression", choice (binaryOperators.map fun (level, operators) =>
    precLeft level (seq [field "left" "_expression", field "operator" (anyText operators),
      field "right" "_expression"]))),
  ("assignment_expression", precLeft Level.assign
    (seq [field "left" "_expression", text "=", field "right" "_expression"])),
  ("compound_assignment_expr", precLeft Level.assign (seq [field "left" "_expression",
    field "operator" (anyText ["+=", "-=", "*=", "/=", "%=", "&=", "|=", "^=", "<<=", ">>="]),
    field "right" "_expression"])),
  ("type_cast_expression", precLeft Level.cast
    (seq [field "value" "_expression", text "as", field "type" "_type"])),
  ("return_expression", choice [precLeft 0 (seq [text "return", "_expression"]),
    prec (-1) (text "return")]),
  ("yield_expression", choice [precLeft 0 (seq [text "yield", "_expression"]),
    prec (-1) (text "yield")]),
  ("call_expression", prec Level.call (seq [field "function" "_expression_except_range",
    field "arguments" "arguments"])),
  ("arguments", seq ([text "("] ++ commaList (seq [any "attribute_item", "_expression"]) ++
    [text ")"])),
  ("array_expression", seq [text "[", any "attribute_item", choice [
    seq ["_expression", text ";", field "length" "_expression"],
    seq (commaList (seq [any "attribute_item", "_expression"]))], text "]"]),
  ("parenthesized_expression", seq [text "(", "_expression", text ")"]),
  ("tuple_expression", seq [text "(", any "attribute_item", seq ["_expression", text ","],
    any (seq ["_expression", text ","]), opt "_expression", text ")"]),
  ("unit_expression", seq [text "(", text ")"]),
  ("struct_expression", seq [field "name" (choice ["_type_identifier",
    as "scoped_type_identifier" "scoped_type_identifier_in_expression_position",
    "generic_type_with_turbofish"]), field "body" "field_initializer_list"]),
  ("field_initializer_list", seq ([text "\x7b"] ++ commaList (choice [
    "shorthand_field_initializer", "field_initializer", "base_field_initializer"]) ++
    [text "\x7d"])),
  ("shorthand_field_initializer", seq [any "attribute_item", "identifier"]),
  ("field_initializer", seq [any "attribute_item",
    field "field" (choice ["_field_identifier", "integer_literal"]), text ":",
    field "value" "_expression"]),
  ("base_field_initializer", seq [text "..", "_expression"])]

def controlRules : List (String × Rule) :=
  let optLabel : Rule := opt (seq ["label", text ":"])
  [("if_expression", precRight 0 (seq [text "if", field "condition" "_condition",
    field "consequence" "block", opt (field "alternative" "else_clause")])),
  ("let_condition", seq [text "let", field "pattern" "_pattern", text "=",
    field "value" (precLeft Level.and "_expression")]),
  ("_let_chain", precLeft Level.and (choice [
    seq ["_let_chain", text "&&", "let_condition"],
    seq ["_let_chain", text "&&", "_expression"],
    seq ["let_condition", text "&&", "_expression"],
    seq ["let_condition", text "&&", "let_condition"],
    seq ["_expression", text "&&", "let_condition"]])),
  ("_condition", choice ["_expression", "let_condition", as "let_chain" "_let_chain"]),
  ("else_clause", seq [text "else", choice ["block", "if_expression"]]),
  ("match_expression", seq [text "match", field "value" "_expression",
    field "body" "match_block"]),
  ("match_block", seq [text "\x7b",
    opt (seq [any "match_arm", as "match_arm" "last_match_arm"]), text "\x7d"]),
  ("match_arm", precRight 0 (seq [any (choice ["attribute_item", "inner_attribute_item"]),
    field "pattern" "match_pattern", text "=>", choice [
      seq [field "value" "_expression", text ","],
      field "value" (prec 1 "_expression_ending_with_block")]])),
  ("last_match_arm", seq [any (choice ["attribute_item", "inner_attribute_item"]),
    field "pattern" "match_pattern", text "=>", field "value" "_expression", opt (text ",")]),
  ("match_pattern", seq ["_pattern", opt (seq [text "if", field "condition" "_condition"])]),
  ("while_expression", seq [optLabel, text "while", field "condition" "_condition",
    field "body" "block"]),
  ("loop_expression", seq [optLabel, text "loop", field "body" "block"]),
  ("for_expression", seq [optLabel, text "for", field "pattern" "_pattern", text "in",
    field "value" "_expression", field "body" "block"]),
  ("const_block", seq [text "const", field "body" "block"]),
  ("closure_expression", prec Level.closure (seq [opt (text "static"), opt (text "async"),
    opt (text "move"), field "parameters" "closure_parameters", choice [
      seq [opt (seq [text "->", field "return_type" "_type"]), field "body" "block"],
      field "body" (choice ["_expression", text "_"])]])),
  ("closure_parameters", seq [text "|", listOf (text ",") (choice ["_pattern", "parameter"]),
    text "|"]),
  ("label", seq [text "'", "identifier"]),
  ("break_expression", precLeft 0 (seq [text "break", opt "label", opt "_expression"])),
  ("continue_expression", precLeft 0 (seq [text "continue", opt "label"])),
  ("index_expression", prec Level.call (seq ["_expression", text "[", "_expression", text "]"])),
  ("await_expression", prec Level.field (seq ["_expression", text ".", text "await"])),
  ("field_expression", prec Level.field (seq [field "value" "_expression", text ".",
    field "field" (choice ["_field_identifier", "integer_literal"])])),
  ("unsafe_block", seq [text "unsafe", "block"]),
  ("async_block", seq [text "async", opt (text "move"), "block"]),
  ("gen_block", seq [text "gen", opt (text "move"), "block"]),
  ("try_block", seq [text "try", "block"]),
  ("block", seq [optLabel, text "\x7b", any "_statement", opt "_expression", text "\x7d"])]

/-! ## Patterns -/

def patternRules : List (String × Rule) := [
  ("_pattern", choice ["_literal_pattern", primitiveName, "identifier", "scoped_identifier",
    "generic_pattern", "tuple_pattern", "tuple_struct_pattern", "struct_pattern",
    "_reserved_identifier", "ref_pattern", "slice_pattern", "captured_pattern",
    "reference_pattern", "remaining_field_pattern", "mut_pattern", "range_pattern",
    "or_pattern", "const_block", "macro_invocation", text "_"]),
  ("generic_pattern", seq [choice ["identifier", "scoped_identifier"], text "::",
    field "type_arguments" "type_arguments"]),
  ("tuple_pattern", seq ([text "("] ++ commaList (choice ["_pattern", "closure_expression"]) ++
    [text ")"])),
  ("slice_pattern", seq ([text "["] ++ commaList "_pattern" ++ [text "]"])),
  ("tuple_struct_pattern", seq ([field "type" (choice ["identifier", "scoped_identifier",
    as "generic_type" "generic_type_with_turbofish"]), text "("] ++ commaList "_pattern" ++
    [text ")"])),
  ("struct_pattern", seq ([field "type" (choice ["_type_identifier", "scoped_type_identifier"]),
    text "\x7b"] ++ commaList (choice ["field_pattern", "remaining_field_pattern"]) ++
    [text "\x7d"])),
  ("field_pattern", seq [opt (text "ref"), opt "mutable_specifier", choice [
    field "name" (as "shorthand_field_identifier" "identifier"),
    seq [field "name" "_field_identifier", text ":", field "pattern" "_pattern"]]]),
  ("remaining_field_pattern", text ".."),
  ("mut_pattern", prec (-1) (seq ["mutable_specifier", "_pattern"])),
  ("range_pattern", prec 1 (choice [
    seq [field "left" (choice ["_literal_pattern", "_path"]), choice [
      seq [anyText ["...", "..=", ".."], field "right" (choice ["_literal_pattern", "_path"])],
      text ".."]],
    seq [anyText ["..=", ".."], field "right" (choice ["_literal_pattern", "_path"])]])),
  ("ref_pattern", seq [text "ref", "_pattern"]),
  ("captured_pattern", seq ["identifier", text "@", "_pattern"]),
  ("reference_pattern", seq [text "&", opt "mutable_specifier", "_pattern"]),
  ("or_pattern", precLeft (-2) (choice [
    seq ["_pattern", text "|", "_pattern"], seq [text "|", "_pattern"]]))]

/-! ## Literals, comments and names -/

def hexDigit : Pattern := .oneOf "0123456789abcdefABCDEF"

/-- What may follow a backslash in a literal. -/
def escaped : Pattern := .alts [
  .noneOf "xu",
  .seq (.oneOf "u") (.times 4 hexDigit),
  .seqs [.oneOf "u", .oneOf "\x7b", .plus hexDigit, .oneOf "\x7d"],
  .seq (.oneOf "x") (.times 2 hexDigit)]

/-- The rest of a line. -/
def restOfLine : Pattern := .star (.noneOf "\n")

def wordCharacter : Pattern :=
  .oneOf "0123456789ABCDEFGHIJKLMNOPQRSTUVWXYZ_abcdefghijklmnopqrstuvwxyz"

def literalRules : List (String × Rule) := [
  ("_literal", choice ["string_literal", "raw_string_literal", "char_literal",
    "boolean_literal", "integer_literal", "float_literal"]),
  ("_literal_pattern", choice ["string_literal", "raw_string_literal", "char_literal",
    "boolean_literal", "integer_literal", "float_literal", "negative_literal"]),
  ("negative_literal", seq [text "-", choice ["integer_literal", "float_literal"]]),
  ("integer_literal", pattern (.seq (.alts [
      .seq (.between '0' '9') (.star (.oneOf "0123456789_")),
      .seq (.text "0x") (.plus (.oneOf "0123456789abcdefABCDEF_")),
      .seq (.text "0b") (.plus (.oneOf "01_")),
      .seq (.text "0o") (.plus (.oneOf "01234567_"))])
    (.opt (.alts (numericTypes.map .text))))),
  ("string_literal", seq [asText "\"" (pattern (.seq (.opt (.oneOf "bc")) (.oneOf "\""))),
    any (choice ["escape_sequence", "string_content"]), immediateText "\""]),
  ("raw_string_literal", seq ["_raw_string_literal_start",
    as "string_content" "raw_string_literal_content", "_raw_string_literal_end"]),
  ("char_literal", pattern (.seqs [.opt (.oneOf "b"), .oneOf "'",
    .opt (.alt (.seq (.oneOf "\\") escaped) (.noneOf "\\'")), .oneOf "'"])),
  ("escape_sequence", immediate (.seq (.oneOf "\\") escaped)),
  ("boolean_literal", choice [text "true", text "false"]),
  ("line_comment", seq [text "//", choice [
    seq [immediate (.text "//") 2, pattern restOfLine],
    seq ["_line_doc_comment_marker", field "doc" (as "doc_comment" "_line_doc_content")],
    immediate restOfLine 1]]),
  ("_line_doc_comment_marker", choice [
    field "outer" (as "outer_doc_comment_marker" "_outer_line_doc_comment_marker"),
    field "inner" (as "inner_doc_comment_marker" "_inner_line_doc_comment_marker")]),
  ("_inner_line_doc_comment_marker", immediateText "!" 2),
  ("_outer_line_doc_comment_marker", immediateText "/" 2),
  ("block_comment", seq [text "/*", opt (choice [
    seq ["_block_doc_comment_marker",
      opt (field "doc" (as "doc_comment" "_block_comment_content"))],
    "_block_comment_content"]), text "*/"]),
  ("_block_doc_comment_marker", choice [
    field "outer" (as "outer_doc_comment_marker" "_outer_block_doc_comment_marker"),
    field "inner" (as "inner_doc_comment_marker" "_inner_block_doc_comment_marker")]),
  ("_path", choice ["self", primitiveName, "metavariable", "super", "crate", "identifier",
    "scoped_identifier", "_reserved_identifier"]),
  ("identifier", pattern (.seqs [.opt (.text "r#"),
    .chars (Identifier.xidStart.union (.single '_')),
    .star (.chars (Identifier.xidContinue.union (.single '_')))])),
  ("shebang", pattern (.seqs [.text "#!", .star (.oneOf " \t\r\n\x0b\x0c"), .noneOf "[",
    .plus (.noneOf "\n")])),
  ("_reserved_identifier", as "identifier" (anyText ["default", "union", "gen"])),
  ("_type_identifier", as "type_identifier" "identifier"),
  ("_field_identifier", as "field_identifier" "identifier"),
  ("self", text "self"),
  ("super", text "super"),
  ("crate", text "crate"),
  ("metavariable", pattern (.seqs [.oneOf "$",
    .oneOf "ABCDEFGHIJKLMNOPQRSTUVWXYZ_abcdefghijklmnopqrstuvwxyz", .star wordCharacter]))]

/-- The grammar of a Rust file. -/
def grammar : RuleSet where
  rules := statementRules ++ macroRules ++ itemRules ++ typeRules ++ operatorRules ++
    controlRules ++ patternRules ++ literalRules
  blanks := .ofString " \t\r\n\x0b\x0c"
  extras := ["line_comment", "block_comment"]
  externals := [.named "string_content", .named "_raw_string_literal_start",
    .named "raw_string_literal_content", .named "_raw_string_literal_end",
    .named "float_literal", .named "_outer_block_doc_comment_marker",
    .named "_inner_block_doc_comment_marker", .named "_block_comment_content",
    .named "_line_doc_content", .named "_error_sentinel"]
  inlined := ["_path", "_type_identifier", "_tokens", "_field_identifier", "_non_special_token",
    "_declaration_statement", "_reserved_identifier", "_expression_ending_with_block"]
  families := ["_expression", "_type", "_literal", "_literal_pattern", "_declaration_statement",
    "_pattern"]
  word := some "identifier"

end CodeAtlas.Rust
