import DocSnapshot.Grammar.Production

/-! The grammar of Python sources, as lenient as a documentation tool wants it: old statements such
as `print x` are read too, and a block may be empty. -/
namespace DocSnapshot.Python
open DocSnapshot.Grammar (Table)
open DocSnapshot.Grammar.Rule (ref all any opt many many1 sepBy1 commaSep1 field level side weight
  leftAt rightAt shownAs token label)

private abbrev Rule := DocSnapshot.Grammar.Rule

private def expression : Rule := ref "expression"
private def primary : Rule := ref "primary_expression"
private def identifier : Rule := token "identifier"
private def suite : Rule := ref "_suite"
private def expressions : Rule := ref "_expressions"
private def typeRule : Rule := ref "type"
private def pattern : Rule := ref "pattern"
private def simplePattern : Rule := ref "_simple_pattern"
private def casePattern : Rule := ref "case_pattern"
private def newline : Rule := token "newline"
private def indent : Rule := token "indent"
private def dedent : Rule := token "dedent"
private def openBrace : Rule := token "\x7b"
private def closeBrace : Rule := token "\x7d"

private def between (o : String) (r : Rule) (c : String) : Rule := all [o, r, c]

private def statements : List (String × Rule) := [
  ("module", many (ref "_statement")),
  ("_statement", any [ref "_simple_statements", ref "_compound_statement"]),
  ("_simple_statements",
    all [sepBy1 (ref "_simple_statement") ";", opt ";", newline]),
  ("_simple_statement", any [
    ref "future_import_statement", ref "import_statement", ref "import_from_statement",
    ref "print_statement", ref "assert_statement", ref "expression_statement",
    ref "return_statement", ref "delete_statement", ref "raise_statement", ref "pass_statement",
    ref "break_statement", ref "continue_statement", ref "global_statement",
    ref "nonlocal_statement", ref "exec_statement", ref "type_alias_statement"]),
  ("import_statement", all ["import", ref "_import_list"]),
  ("import_prefix", many1 "."),
  ("relative_import", all [ref "import_prefix", opt (ref "dotted_name")]),
  ("future_import_statement", all ["from", "__future__", "import",
    any [ref "_import_list", between "(" (ref "_import_list") ")"]]),
  ("import_from_statement", all ["from",
    field "module_name" (any [ref "relative_import", ref "dotted_name"]), "import",
    any [ref "wildcard_import", ref "_import_list", between "(" (ref "_import_list") ")"]]),
  ("_import_list", all [
    commaSep1 (field "name" (any [ref "dotted_name", ref "aliased_import"])), opt ","]),
  ("aliased_import",
    all [field "name" (ref "dotted_name"), "as", field "alias" identifier]),
  ("wildcard_import", "*"),
  ("print_statement", any [
    level 1 (all ["print", ref "chevron", many (all [",", field "argument" expression]),
      opt ","]),
    level (-3) (weight (-1) (all ["print", commaSep1 (field "argument" expression), opt ","]))]),
  ("chevron", all [">>", expression]),
  ("assert_statement", all ["assert", commaSep1 expression]),
  ("expression_statement", any [expression, all [commaSep1 expression, opt ","],
    ref "assignment", ref "augmented_assignment", ref "yield"]),
  ("named_expression",
    all [field "name" (ref "_named_expression_lhs"), ":=", field "value" expression]),
  ("_named_expression_lhs", any [identifier, ref "keyword_identifier"]),
  ("return_statement", all ["return", opt expressions]),
  ("delete_statement", all ["del", expressions]),
  ("_expressions", any [expression, ref "expression_list"]),
  ("raise_statement",
    all ["raise", opt expressions, opt (all ["from", field "cause" expression])]),
  ("pass_statement", leftAt 0 "pass"),
  ("break_statement", leftAt 0 "break"),
  ("continue_statement", leftAt 0 "continue")]

private def compounds : List (String × Rule) := [
  ("_compound_statement", any [
    ref "if_statement", ref "for_statement", ref "while_statement", ref "try_statement",
    ref "with_statement", ref "function_definition", ref "class_definition",
    ref "decorated_definition", ref "match_statement"]),
  ("if_statement", all ["if", field "condition" expression, ":", field "consequence" suite,
    many (field "alternative" (ref "elif_clause")),
    opt (field "alternative" (ref "else_clause"))]),
  ("elif_clause", all ["elif", field "condition" expression, ":", field "consequence" suite]),
  ("else_clause", all ["else", ":", field "body" suite]),
  ("match_statement", all ["match", commaSep1 (field "subject" expression), opt ",", ":",
    field "body" (shownAs "block" (ref "_match_block"))]),
  ("_match_block",
    any [all [indent, many (field "alternative" (ref "case_clause")), dedent], newline]),
  ("case_clause", all ["case", commaSep1 casePattern, opt ",",
    opt (field "guard" (ref "if_clause")), ":", field "consequence" suite]),
  ("for_statement", all [opt "async", "for", field "left" (ref "_left_hand_side"), "in",
    field "right" expressions, ":", field "body" suite,
    field "alternative" (opt (ref "else_clause"))]),
  ("while_statement", all ["while", field "condition" expression, ":", field "body" suite,
    opt (field "alternative" (ref "else_clause"))]),
  ("try_statement", all ["try", ":", field "body" suite, any [
    all [many1 (ref "except_clause"), opt (ref "else_clause"), opt (ref "finally_clause")],
    all [many1 (ref "except_group_clause"), opt (ref "else_clause"), opt (ref "finally_clause")],
    ref "finally_clause"]]),
  ("except_clause", all ["except", opt (all [field "value" expression,
    opt (all [any ["as", ","], field "alias" expression])]), ":", suite]),
  ("except_group_clause", all ["except*",
    all [expression, opt (all ["as", expression])], ":", suite]),
  ("finally_clause", all ["finally", ":", suite]),
  ("with_statement", all [opt "async", "with", ref "with_clause", ":", field "body" suite]),
  ("with_clause", any [all [commaSep1 (ref "with_item"), opt ","],
    all ["(", commaSep1 (ref "with_item"), opt ",", ")"]]),
  ("with_item", weight 1 (field "value" expression)),
  ("function_definition", all [opt "async", "def", field "name" identifier,
    field "type_parameters" (opt (ref "type_parameter")),
    field "parameters" (ref "parameters"),
    opt (all ["->", field "return_type" typeRule]), ":", field "body" suite]),
  ("parameters", between "(" (opt (ref "_parameters")) ")"),
  ("lambda_parameters", ref "_parameters"),
  ("list_splat", all ["*", expression]),
  ("dictionary_splat", all ["**", expression]),
  ("global_statement", all ["global", commaSep1 identifier]),
  ("nonlocal_statement", all ["nonlocal", commaSep1 identifier]),
  ("exec_statement", all ["exec", field "code" (any [ref "string", identifier]),
    opt (all ["in", commaSep1 expression])]),
  ("type_alias_statement",
    weight 1 (all ["type", field "left" typeRule, "=", field "right" typeRule])),
  ("class_definition", all ["class", field "name" identifier,
    field "type_parameters" (opt (ref "type_parameter")),
    field "superclasses" (opt (ref "argument_list")), ":", field "body" suite]),
  ("type_parameter", all ["[", commaSep1 typeRule, opt ",", "]"]),
  ("parenthesized_list_splat", level 1 (between "(" (any [
    shownAs "parenthesized_expression" (ref "parenthesized_list_splat"), ref "list_splat"]) ")")),
  ("argument_list", all ["(", opt (commaSep1 (any [expression, ref "list_splat",
    ref "dictionary_splat",
    shownAs "parenthesized_expression" (ref "parenthesized_list_splat"),
    ref "keyword_argument"])), opt ",", ")"]),
  ("decorated_definition", all [many1 (ref "decorator"),
    field "definition" (any [ref "class_definition", ref "function_definition"])]),
  ("decorator", all ["@", expression, newline]),
  ("_suite", any [shownAs "block" (ref "_simple_statements"), all [indent, ref "block"],
    shownAs "block" newline]),
  ("block", all [many (ref "_statement"), dedent]),
  ("expression_list", rightAt 0 (all [expression,
    any [",", all [many1 (all [",", expression]), opt ","]]])),
  ("dotted_name", level 1 (sepBy1 identifier "."))]

private def number : Rule := any [token "integer", token "float"]

private def casePatterns : List (String × Rule) := [
  ("case_pattern", level 1 (any [shownAs "as_pattern" (ref "_as_pattern"),
    ref "keyword_pattern", simplePattern])),
  ("_simple_pattern", level 1 (any [ref "class_pattern", ref "splat_pattern",
    ref "union_pattern", shownAs "list_pattern" (ref "_list_pattern"),
    shownAs "tuple_pattern" (ref "_tuple_pattern"), ref "dict_pattern", ref "string",
    ref "concatenated_string", token "true", token "false", token "none",
    all [opt "-", number], ref "complex_pattern", ref "dotted_name", "_"])),
  ("_as_pattern", all [casePattern, "as", identifier]),
  ("union_pattern", rightAt 0 (all [simplePattern, many1 (leftAt 0 (all ["|", simplePattern]))])),
  ("_list_pattern", between "[" (opt (all [commaSep1 casePattern, opt ","])) "]"),
  ("_tuple_pattern", between "(" (opt (all [commaSep1 casePattern, opt ","])) ")"),
  ("dict_pattern", all [openBrace,
    opt (all [commaSep1 (any [ref "_key_value_pattern", ref "splat_pattern"]), opt ","]),
    closeBrace]),
  ("_key_value_pattern", all [field "key" simplePattern, ":", field "value" casePattern]),
  ("keyword_pattern", all [identifier, "=", simplePattern]),
  ("splat_pattern", level 1 (all [any ["*", "**"], any [identifier, "_"]])),
  ("class_pattern", all [ref "dotted_name", "(",
    opt (all [commaSep1 casePattern, opt ","]), ")"]),
  ("complex_pattern", level 1 (all [opt "-", number, any ["+", "-"], number]))]

private def splatTarget : Rule :=
  any [identifier, ref "keyword_identifier", ref "subscript", ref "attribute"]

private def parameterRules : List (String × Rule) := [
  ("_parameters", all [commaSep1 (ref "parameter"), opt ","]),
  ("_patterns", all [commaSep1 pattern, opt ","]),
  ("parameter", any [identifier, ref "typed_parameter", ref "default_parameter",
    ref "typed_default_parameter", ref "list_splat_pattern", ref "tuple_pattern",
    ref "keyword_separator", ref "positional_separator", ref "dictionary_splat_pattern"]),
  ("pattern", any [identifier, ref "keyword_identifier", ref "subscript", ref "attribute",
    ref "list_splat_pattern", ref "tuple_pattern", ref "list_pattern"]),
  ("tuple_pattern", between "(" (opt (ref "_patterns")) ")"),
  ("list_pattern", between "[" (opt (ref "_patterns")) "]"),
  ("default_parameter", all [field "name" (any [identifier, ref "tuple_pattern"]), "=",
    field "value" expression]),
  ("typed_default_parameter", level (-1) (all [field "name" identifier, ":",
    field "type" typeRule, "=", field "value" expression])),
  ("list_splat_pattern", all ["*", splatTarget]),
  ("dictionary_splat_pattern", all ["**", splatTarget]),
  ("as_pattern", leftAt 0 (all [expression, "as",
    field "alias" (shownAs "as_pattern_target" expression)]))]

private def binary (group : Int → Rule → Rule) (n : Int) (operator : String) : Rule :=
  group n (all [field "left" primary, field "operator" operator, field "right" primary])

private def boolean (n : Int) (operator : String) : Rule :=
  leftAt n (all [field "left" expression, field "operator" operator, field "right" expression])

private def expressionRules : List (String × Rule) := [
  ("_expression_within_for_in_clause",
    any [expression, shownAs "lambda" (ref "lambda_within_for_in_clause")]),
  ("expression", any [ref "comparison_operator", ref "not_operator", ref "boolean_operator",
    ref "lambda", primary, ref "conditional_expression", ref "named_expression",
    ref "as_pattern"]),
  ("primary_expression", any [ref "await", ref "binary_operator", identifier,
    ref "keyword_identifier", ref "string", ref "concatenated_string", token "integer",
    token "float", token "true", token "false", token "none", ref "unary_operator",
    ref "attribute", ref "subscript", ref "call", ref "list", ref "list_comprehension",
    ref "dictionary", ref "dictionary_comprehension", ref "set", ref "set_comprehension",
    ref "tuple", ref "parenthesized_expression", ref "generator_expression", token "ellipsis",
    shownAs "list_splat" (ref "list_splat_pattern")]),
  ("not_operator", level 12 (all ["not", field "argument" expression])),
  ("boolean_operator", any [boolean 11 "and", boolean 10 "or"]),
  ("binary_operator", any [binary leftAt 18 "+", binary leftAt 18 "-", binary leftAt 19 "*",
    binary leftAt 19 "@", binary leftAt 19 "/", binary leftAt 19 "%", binary leftAt 19 "//",
    binary rightAt 21 "**", binary leftAt 14 "|", binary leftAt 15 "&", binary leftAt 16 "^",
    binary leftAt 17 "<<", binary leftAt 17 ">>"]),
  ("unary_operator",
    level 20 (all [field "operator" (any ["+", "-", "~"]), field "argument" primary])),
  ("_not_in", all ["not", "in"]),
  ("_is_not", all ["is", "not"]),
  ("comparison_operator", leftAt 13 (all [primary, many1 (all [
    field "operators" (any ["<", "<=", "==", "!=", ">=", ">", "<>", "in",
      label ⟨"not in", false⟩ (ref "_not_in"), "is", label ⟨"is not", false⟩ (ref "_is_not")]),
    primary])])),
  ("lambda", level (-2) (all ["lambda", field "parameters" (opt (ref "lambda_parameters")), ":",
    field "body" expression])),
  ("lambda_within_for_in_clause", all ["lambda",
    field "parameters" (opt (ref "lambda_parameters")), ":",
    field "body" (ref "_expression_within_for_in_clause")]),
  ("assignment", all [field "left" (ref "_left_hand_side"), any [
    all ["=", field "right" (ref "_right_hand_side")],
    all [":", field "type" typeRule],
    all [":", field "type" typeRule, "=", field "right" (ref "_right_hand_side")]]]),
  ("augmented_assignment", all [field "left" (ref "_left_hand_side"),
    field "operator" (any ["+=", "-=", "*=", "/=", "@=", "//=", "%=", "**=", ">>=", "<<=", "&=",
      "^=", "|="]), field "right" (ref "_right_hand_side")]),
  ("_left_hand_side", any [pattern, ref "pattern_list"]),
  ("pattern_list", all [pattern, any [",", all [many1 (all [",", pattern]), opt ","]]]),
  ("_right_hand_side", any [expression, ref "expression_list", ref "assignment",
    ref "augmented_assignment", ref "pattern_list", ref "yield"]),
  ("yield", rightAt 0 (all ["yield", any [all ["from", expression], opt expressions]])),
  ("attribute",
    level 22 (all [field "object" primary, ".", field "attribute" identifier])),
  ("subscript", level 22 (all [field "value" primary, "[",
    commaSep1 (field "subscript" (any [expression, ref "slice"])), opt ",", "]"])),
  ("slice", all [opt expression, ":", opt expression, opt (all [":", opt expression])]),
  ("call", level 22 (all [field "function" primary,
    field "arguments" (any [ref "generator_expression", ref "argument_list"])])),
  ("typed_parameter", level (-1) (all [
    any [identifier, ref "list_splat_pattern", ref "dictionary_splat_pattern"], ":",
    field "type" typeRule])),
  ("type", any [level 1 expression, ref "splat_type", ref "generic_type", ref "union_type",
    ref "constrained_type", ref "member_type"]),
  ("splat_type", level 1 (all [any ["*", "**"], identifier])),
  ("generic_type", level 1 (all [any [identifier, shownAs "identifier" "type"],
    ref "type_parameter"])),
  ("union_type", leftAt 0 (all [typeRule, "|", typeRule])),
  ("constrained_type", rightAt 0 (all [typeRule, ":", typeRule])),
  ("member_type", all [typeRule, ".", identifier]),
  ("keyword_argument", all [field "name" (any [identifier, ref "keyword_identifier"]), "=",
    field "value" expression])]

private def literals : List (String × Rule) := [
  ("list", between "[" (opt (ref "_collection_elements")) "]"),
  ("set", all [openBrace, ref "_collection_elements", closeBrace]),
  ("tuple", between "(" (opt (ref "_collection_elements")) ")"),
  ("dictionary", all [openBrace, opt (commaSep1 (any [ref "pair", ref "dictionary_splat"])),
    opt ",", closeBrace]),
  ("pair", all [field "key" expression, ":", field "value" expression]),
  ("list_comprehension",
    all ["[", field "body" expression, ref "_comprehension_clauses", "]"]),
  ("dictionary_comprehension",
    all [openBrace, field "body" (ref "pair"), ref "_comprehension_clauses", closeBrace]),
  ("set_comprehension",
    all [openBrace, field "body" expression, ref "_comprehension_clauses", closeBrace]),
  ("generator_expression",
    all ["(", field "body" expression, ref "_comprehension_clauses", ")"]),
  ("_comprehension_clauses",
    all [ref "for_in_clause", many (any [ref "for_in_clause", ref "if_clause"])]),
  ("parenthesized_expression", level 1 (between "(" (any [expression, ref "yield"]) ")")),
  ("_collection_elements", all [commaSep1 (any [expression, ref "yield", ref "list_splat",
    ref "parenthesized_list_splat"]), opt ","]),
  ("for_in_clause", leftAt 0 (all [opt "async", "for", field "left" (ref "_left_hand_side"), "in",
    field "right" (commaSep1 (ref "_expression_within_for_in_clause")), opt ","])),
  ("if_clause", all ["if", expression]),
  ("conditional_expression",
    rightAt (-1) (all [expression, "if", expression, "else", expression])),
  ("concatenated_string", all [ref "string", many1 (ref "string")]),
  ("string", all [token "string_start", many (any [ref "interpolation", ref "string_content"]),
    token "string_end"]),
  ("string_content", rightAt 0 (many1 (any [token "escape_interpolation",
    token "escape_sequence", token "lone backslash", token "string text"]))),
  ("interpolation", all [openBrace, field "expression" (ref "_f_expression"), opt "=",
    opt (field "type_conversion" (token "type_conversion")),
    opt (field "format_specifier" (ref "format_specifier")), closeBrace]),
  ("_f_expression", any [expression, ref "expression_list", ref "pattern_list", ref "yield"]),
  ("format_specifier", all [":", many (any [token "format text",
    shownAs "format_expression" (ref "interpolation")])]),
  ("keyword_identifier", any [
    level (-3) (shownAs "identifier" (any ["print", "exec", "async", "await"])),
    shownAs "identifier" (any ["type", "match"])]),
  ("await", level 20 (all ["await", primary])),
  ("positional_separator", "/"),
  ("keyword_separator", "*")]

/-- The grammar. Names that start with an underscore, and the five general kinds, make no node. -/
def grammar : Grammar where
  rules := statements ++ compounds ++ casePatterns ++ parameterRules ++ expressionRules ++ literals
  hidden := ["_statement", "_simple_statements", "_simple_statement", "_import_list",
    "_named_expression_lhs", "_expressions", "_compound_statement", "_match_block", "_suite",
    "_simple_pattern", "_as_pattern", "_list_pattern", "_tuple_pattern", "_key_value_pattern",
    "_parameters", "_patterns", "_expression_within_for_in_clause", "_not_in", "_is_not",
    "_left_hand_side", "_right_hand_side", "_comprehension_clauses", "_collection_elements",
    "_f_expression", "expression", "primary_expression", "pattern", "parameter",
    "keyword_identifier"]
  inlined := ["_simple_statement", "_compound_statement", "_suite", "_expressions",
    "_left_hand_side", "keyword_identifier"]
  namedTokens := ["identifier", "integer", "float", "true", "false", "none", "ellipsis",
    "string_start", "string_end", "escape_interpolation", "escape_sequence", "type_conversion",
    "comment", "line_continuation"]
  hiddenTokens := ["newline", "indent", "dedent", "string text", "lone backslash",
    "format text", DocSnapshot.Grammar.endToken]
  extras := ["comment", "line_continuation"]
  word := "identifier"

def table : Table := grammar.table

end DocSnapshot.Python
