import SemanticLayer.Database
/-!
The texts of the queries that look at a database itself: its version, the number of its tables, and
its catalog. The catalog queries of all engines name their columns alike.
-/
namespace SemanticLayer.Database

/-- One row with the columns `version`, `database` and `user`. -/
def versionQuery : Database → String
  | postgresql => "SELECT version() AS version, current_database() AS database, current_user AS \"user\""
  | mssql => "SELECT @@VERSION AS version, DB_NAME() AS [database], SUSER_SNAME() AS [user]"
  | mysql => "SELECT VERSION() AS version, DATABASE() AS `database`, CURRENT_USER() AS `user`"

/-- One row with the column `table_count`. -/
def tableCountQuery : Database → String
  | postgresql => "
            SELECT COUNT(*)::bigint AS table_count
            FROM information_schema.tables
            WHERE table_schema NOT IN ('pg_catalog', 'information_schema')
                AND table_type = 'BASE TABLE'
        "
  | mssql => "SELECT COUNT(*) AS table_count FROM INFORMATION_SCHEMA.TABLES WHERE TABLE_TYPE = 'BASE TABLE'"
  | mysql => "
            SELECT COUNT(*) AS table_count
            FROM information_schema.TABLES
            WHERE TABLE_SCHEMA = DATABASE() AND TABLE_TYPE = 'BASE TABLE'
        "

/-- The tables and views: `table_name`, `table_type`, which is `table` or `view`, and `row_count`. -/
def tablesQuery : Database → String
  | postgresql => "
                SELECT t.table_name::text AS table_name,
                    CASE WHEN t.table_type = 'VIEW' THEN 'view' ELSE 'table' END AS table_type,
                    GREATEST(COALESCE(c.reltuples, 0), 0)::bigint AS row_count
                FROM information_schema.tables t
                LEFT JOIN pg_catalog.pg_class c
                    ON c.oid = format('%I.%I', t.table_schema, t.table_name)::regclass
                WHERE t.table_schema = current_schema()
                ORDER BY t.table_name
            "
  | mssql => "
                SELECT t.name AS table_name, 'table' AS table_type, SUM(p.rows) AS row_count
                FROM sys.tables t
                JOIN sys.partitions p ON p.object_id = t.object_id AND p.index_id IN (0, 1)
                WHERE t.schema_id = SCHEMA_ID()
                GROUP BY t.name
                UNION ALL
                SELECT v.name AS table_name, 'view' AS table_type, NULL AS row_count
                FROM sys.views v
                WHERE v.schema_id = SCHEMA_ID()
                ORDER BY table_name
            "
  | mysql => "
                SELECT TABLE_NAME AS table_name,
                    CASE WHEN TABLE_TYPE = 'VIEW' THEN 'view' ELSE 'table' END AS table_type,
                    TABLE_ROWS AS row_count
                FROM information_schema.TABLES
                WHERE TABLE_SCHEMA = DATABASE()
                ORDER BY TABLE_NAME
            "

/-- The columns: `table_name`, `column_name`, `data_type`, `is_nullable`, `has_default` and `position`. -/
def columnsQuery : Database → String
  | postgresql => "
                SELECT c.table_name::text AS table_name,
                    c.column_name::text AS column_name,
                    c.data_type::text AS data_type,
                    (c.is_nullable = 'YES') AS is_nullable,
                    (c.column_default IS NOT NULL) AS has_default,
                    c.ordinal_position::int AS position
                FROM information_schema.columns c
                WHERE c.table_schema = current_schema()
                ORDER BY c.table_name, c.ordinal_position
            "
  | mssql => "
                SELECT c.TABLE_NAME AS table_name,
                    c.COLUMN_NAME AS column_name,
                    c.DATA_TYPE AS data_type,
                    CASE WHEN c.IS_NULLABLE = 'YES' THEN 1 ELSE 0 END AS is_nullable,
                    CASE WHEN c.COLUMN_DEFAULT IS NULL THEN 0 ELSE 1 END AS has_default,
                    c.ORDINAL_POSITION AS position
                FROM INFORMATION_SCHEMA.COLUMNS c
                WHERE c.TABLE_SCHEMA = SCHEMA_NAME()
                ORDER BY c.TABLE_NAME, c.ORDINAL_POSITION
            "
  | mysql => "
                SELECT TABLE_NAME AS table_name,
                    COLUMN_NAME AS column_name,
                    DATA_TYPE AS data_type,
                    CASE WHEN IS_NULLABLE = 'YES' THEN 1 ELSE 0 END AS is_nullable,
                    CASE WHEN COLUMN_DEFAULT IS NULL THEN 0 ELSE 1 END AS has_default,
                    ORDINAL_POSITION AS position
                FROM information_schema.COLUMNS
                WHERE TABLE_SCHEMA = DATABASE()
                ORDER BY TABLE_NAME, ORDINAL_POSITION
            "

/-- The columns of primary keys: `table_name` and `column_name`. -/
def primaryKeysQuery : Database → String
  | postgresql => "
                SELECT kcu.table_name::text AS table_name, kcu.column_name::text AS column_name
                FROM information_schema.table_constraints tc
                JOIN information_schema.key_column_usage kcu
                    ON tc.constraint_name = kcu.constraint_name
                    AND tc.table_schema = kcu.table_schema
                WHERE tc.table_schema = current_schema()
                    AND tc.constraint_type = 'PRIMARY KEY'
            "
  | mssql => "
                SELECT kcu.TABLE_NAME AS table_name, kcu.COLUMN_NAME AS column_name
                FROM INFORMATION_SCHEMA.TABLE_CONSTRAINTS tc
                JOIN INFORMATION_SCHEMA.KEY_COLUMN_USAGE kcu
                    ON tc.CONSTRAINT_NAME = kcu.CONSTRAINT_NAME
                    AND tc.TABLE_SCHEMA = kcu.TABLE_SCHEMA
                WHERE tc.TABLE_SCHEMA = SCHEMA_NAME()
                    AND tc.CONSTRAINT_TYPE = 'PRIMARY KEY'
            "
  | mysql => "
                SELECT kcu.TABLE_NAME AS table_name, kcu.COLUMN_NAME AS column_name
                FROM information_schema.TABLE_CONSTRAINTS tc
                JOIN information_schema.KEY_COLUMN_USAGE kcu
                    ON tc.CONSTRAINT_NAME = kcu.CONSTRAINT_NAME
                    AND tc.TABLE_SCHEMA = kcu.TABLE_SCHEMA
                    AND tc.TABLE_NAME = kcu.TABLE_NAME
                WHERE tc.TABLE_SCHEMA = DATABASE()
                    AND tc.CONSTRAINT_TYPE = 'PRIMARY KEY'
            "

/-- The columns with unique values: `table_name` and `column_name`. -/
def uniqueColumnsQuery : Database → String
  | postgresql => "
                SELECT kcu.table_name::text AS table_name, kcu.column_name::text AS column_name
                FROM information_schema.table_constraints tc
                JOIN information_schema.key_column_usage kcu
                    ON tc.constraint_name = kcu.constraint_name
                    AND tc.table_schema = kcu.table_schema
                WHERE tc.table_schema = current_schema()
                    AND tc.constraint_type = 'UNIQUE'
            "
  | mssql => "
                SELECT kcu.TABLE_NAME AS table_name, kcu.COLUMN_NAME AS column_name
                FROM INFORMATION_SCHEMA.TABLE_CONSTRAINTS tc
                JOIN INFORMATION_SCHEMA.KEY_COLUMN_USAGE kcu
                    ON tc.CONSTRAINT_NAME = kcu.CONSTRAINT_NAME
                    AND tc.TABLE_SCHEMA = kcu.TABLE_SCHEMA
                WHERE tc.TABLE_SCHEMA = SCHEMA_NAME()
                    AND tc.CONSTRAINT_TYPE = 'UNIQUE'
            "
  | mysql => "
                SELECT kcu.TABLE_NAME AS table_name, kcu.COLUMN_NAME AS column_name
                FROM information_schema.TABLE_CONSTRAINTS tc
                JOIN information_schema.KEY_COLUMN_USAGE kcu
                    ON tc.CONSTRAINT_NAME = kcu.CONSTRAINT_NAME
                    AND tc.TABLE_SCHEMA = kcu.TABLE_SCHEMA
                    AND tc.TABLE_NAME = kcu.TABLE_NAME
                WHERE tc.TABLE_SCHEMA = DATABASE()
                    AND tc.CONSTRAINT_TYPE = 'UNIQUE'
            "

/-- The foreign keys: `constraint_name`, `source_table`, `source_column`, `target_table` and
`target_column`. -/
def foreignKeysQuery : Database → String
  | postgresql => "
                SELECT tc.constraint_name::text AS constraint_name,
                    kcu.table_name::text AS source_table,
                    kcu.column_name::text AS source_column,
                    ccu.table_name::text AS target_table,
                    ccu.column_name::text AS target_column
                FROM information_schema.table_constraints tc
                JOIN information_schema.key_column_usage kcu
                    ON tc.constraint_name = kcu.constraint_name
                    AND tc.table_schema = kcu.table_schema
                JOIN information_schema.constraint_column_usage ccu
                    ON tc.constraint_name = ccu.constraint_name
                    AND tc.table_schema = ccu.table_schema
                WHERE tc.table_schema = current_schema()
                    AND tc.constraint_type = 'FOREIGN KEY'
                ORDER BY kcu.table_name, tc.constraint_name
            "
  | mssql => "
                SELECT fk.name AS constraint_name,
                    tp.name AS source_table,
                    cp.name AS source_column,
                    tr.name AS target_table,
                    cr.name AS target_column
                FROM sys.foreign_keys fk
                JOIN sys.foreign_key_columns fkc ON fkc.constraint_object_id = fk.object_id
                JOIN sys.tables tp ON tp.object_id = fkc.parent_object_id
                JOIN sys.columns cp
                    ON cp.object_id = fkc.parent_object_id AND cp.column_id = fkc.parent_column_id
                JOIN sys.tables tr ON tr.object_id = fkc.referenced_object_id
                JOIN sys.columns cr
                    ON cr.object_id = fkc.referenced_object_id
                    AND cr.column_id = fkc.referenced_column_id
                WHERE tp.schema_id = SCHEMA_ID()
                ORDER BY tp.name, fk.name
            "
  | mysql => "
                SELECT CONSTRAINT_NAME AS constraint_name,
                    TABLE_NAME AS source_table,
                    COLUMN_NAME AS source_column,
                    REFERENCED_TABLE_NAME AS target_table,
                    REFERENCED_COLUMN_NAME AS target_column
                FROM information_schema.KEY_COLUMN_USAGE
                WHERE TABLE_SCHEMA = DATABASE()
                    AND REFERENCED_TABLE_NAME IS NOT NULL
                ORDER BY TABLE_NAME, CONSTRAINT_NAME
            "

end SemanticLayer.Database
