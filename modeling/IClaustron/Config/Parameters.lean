import IClaustron.Config.Entries

/-!
# Config.Parameters — the table of configuration parameters

`glob_conf_entry` as init_config_parameters (api/ic_apic_conf_param.ic) fills it, in the
order of the source. A row has the index in the table, the configuration id and the
entry; texts, mandatory bits and the kind of change are left out.
-/

namespace IClaustron.Config

open ConfigEntry (setConfig setBoolean setString deprecated)

/-- SYSTEM_SECTION_ADJUSTMENT: the parameters of the system have configuration ids from
1001 on and go over the wire as 1, 2 and 3. -/
def systemSectionAdjustment : Nat := 1000

structure Parameter where
  inx : Nat
  configId : Nat
  /-- `map_inx_to_config_id[inx]` -/
  protocolId : Nat
  entry : ConfigEntry

def row (inx configId : Nat) (entry : ConfigEntry) : Parameter :=
  ⟨inx, configId, configId, entry⟩

def systemRow (inx configId : Nat) (entry : ConfigEntry) : Parameter :=
  ⟨inx, configId, configId - systemSectionAdjustment, entry⟩

def sparseString : CString := ⟨[115, 112, 97, 114, 115, 101], by decide⟩

def fileAndRepTypes : Nat := ConfigType.fileServer.mask + ConfigType.repServer.mask

/-- The node types that are neither data server nor cluster server. -/
def userTypes : Nat := allClientTypes - ConfigType.clusterServer.mask

/-- The calls of `init_config_parameters`. -/
def initConfigParameters : List Parameter :=
  [systemRow 10 1001 <| (setConfig .system "system_primary_cs_node" .uint16 0).minMax 0 255,
   systemRow 11 1002 <| setConfig .system "system_configuration_number" .uint32 0,
   systemRow 12 1003 <| (setString .system "system_name").defaultStr .empty,
   row 1 1 <| (setConfig .dataServer "inject_fault" .uint32 2).minMax 0 4,
   row 3 3 <| ((setConfig .dataServer "node_id" .uint32 0).minMax 1 255).types allNodeTypes,
   row 5 5 <| ((setString .dataServer "hostname").defaultStr .empty).types allNodeTypes,
   row 7 7 <| (setString .dataServer "node_data_path").types allNodeTypes,
   row 9 9 <| (setConfig .dataServer "network_buffer_size" .uint32 0).types allNodeTypes,
   row 16 16 <| ((setString .dataServer "node_name").onlyIclaustron).types allNodeTypes,
   row 17 11 <| (setBoolean .dataServer "dedicated_node_id" 0).types allNodeTypes,
   row 20 100 <| (setConfig .dataServer "max_number_of_trace_files" .uint32 25).minMax 1 2048,
   row 21 101 <| (setConfig .dataServer "number_of_replicas" .uint32 0).minMax 1 4,
   row 22 102 <| (setConfig .dataServer "number_of_table_objects" .uint32 256).min 32,
   row 23 103 <| (setConfig .dataServer "number_of_column_objects" .uint32 2048).min 256,
   row 24 104 <| (setConfig .dataServer "number_of_key_objects" .uint32 256).min 32,
   row 25 105 <| (setConfig .dataServer "number_of_internal_trigger_objects" .uint32 1536).min 512,
   row 26 106 <| (setConfig .dataServer "number_of_connection_objects" .uint32 8192).min 128,
   row 27 107 <| (setConfig .dataServer "number_of_operation_objects" .uint32 32768).min 1024,
   row 28 108 <| (setConfig .dataServer "number_of_scan_objects" .uint32 128).minMax 32 512,
   row 29 109 <|
     (setConfig .dataServer "number_of_internal_trigger_operation_objects"
       .uint32 4000).minMax 4000 4000,
   row 30 110 <| (setConfig .dataServer "number_of_key_operation_objects" .uint32 4096).min 128,
   row 31 111 <|
     (setConfig .dataServer "size_of_connection_buffer" .uint32 1048576).minMax 1048576 1048576,
   row 32 112 <| (setConfig .dataServer "size_of_ram_memory" .uint64 268435456).min 1048576,
   row 33 113 <| (setConfig .dataServer "size_of_hash_memory" .uint64 0).min 0,
   row 34 114 <| setBoolean .dataServer "use_unswappable_memory" 0,
   row 35 115 <| setConfig .dataServer "timer_wait_partial_start" .uint32 20000,
   row 36 116 <| setConfig .dataServer "timer_wait_partitioned_start" .uint32 0,
   row 37 117 <| setConfig .dataServer "timer_wait_error_start" .uint32 0,
   row 38 118 <| (setConfig .dataServer "timer_heartbeat_data_server_nodes" .uint32 700).min 10,
   row 39 119 <| (setConfig .dataServer "timer_heartbeat_client_nodes" .uint32 1000).min 10,
   row 40 120 <| (setConfig .dataServer "timer_local_checkpoint" .uint32 24).minMax 6 31,
   row 41 121 <| (setConfig .dataServer "timer_global_checkpoint" .uint32 1000).min 10,
   row 42 122 <| (setConfig .dataServer "timer_resolve" .uint32 2000).min 10,
   row 43 123 <| (setConfig .dataServer "timer_data_server_watchdog" .uint32 6000).min 1000,
   row 44 124 <| setBoolean .dataServer "data_server_automatic_restart" 0,
   row 45 125 <| setString .dataServer "filesystem_path",
   row 46 126 <| (setConfig .dataServer "number_of_redo_log_files" .uint32 4).min 4,
   row 47 127 <| deprecated,
   row 48 128 <| deprecated,
   row 49 129 <|
     (setConfig .dataServer "timer_check_interval" .uint32 1000).minMax 1000 4294967295,
   row 50 130 <| (setConfig .dataServer "timer_client_activity" .uint32 1073741824).min 1000,
   row 51 131 <| (setConfig .dataServer "timer_deadlock" .uint32 2000).min 1000,
   row 52 132 <| (setConfig .dataServer "number_of_checkpoint_objects" .uint32 1).minMax 1 1,
   row 53 133 <| (setConfig .dataServer "checkpoint_memory" .uint32 4194304).minMax 0 4294967295,
   row 54 134 <|
     (setConfig .dataServer "checkpoint_data_memory" .uint32 1048576).minMax 524288 4294967295,
   row 55 135 <|
     (setConfig .dataServer "checkpoint_log_memory" .uint32 16777216).minMax 2097152 4294967295,
   row 56 136 <|
     (setConfig .dataServer "checkpoint_write_size" .uint32 262144).minMax 32768 4294967295,
   row 57 137 <| deprecated,
   row 58 138 <| deprecated,
   row 59 139 <|
     (setConfig .dataServer "checkpoint_max_write_size" .uint32 1048576).minMax 262144 4294967295,
   row 60 140 <|
     ((setConfig .dataServer "size_of_redo_log_files"
       .uint32 134217728).minMax 4194304 2097152000).minNdbVersion 0x50119,
   row 61 141 <|
     ((setConfig .dataServer "data_server_initial_watchdog_timer"
       .uint32 15000).min 100).minNdbVersion 0x50119,
   row 62 142 <| setConfig .dataServer "data_server_resolve_method" .uint32 1,
   row 68 148 <| setBoolean .dataServer "data_server_volatile_mode" 0,
   row 69 149 <| (setConfig .dataServer "number_of_ordered_key_objects" .uint32 512).min 32,
   row 70 150 <| (setConfig .dataServer "number_of_unique_hash_key_objects" .uint32 128).min 32,
   row 71 151 <| deprecated,
   row 72 152 <| deprecated,
   row 73 153 <| (setConfig .dataServer "size_of_scan_batch" .uint32 256).minMax 1 992,
   row 74 154 <| deprecated,
   row 75 155 <| deprecated,
   row 76 156 <| (setConfig .dataServer "redo_log_buffer_memory" .uint32 33554432).min 1048576,
   row 77 157 <| (setConfig .dataServer "long_message_memory" .uint32 0).minMax 524288 4294967295,
   row 78 158 <| setString .dataServer "data_server_checkpoint_path",
   row 79 159 <| (setConfig .dataServer "data_server_max_open_files" .uint32 64).minMax 64 64,
   row 80 160 <| (setConfig .dataServer "page_cache_size" .uint64 134217728).min 65536,
   row 81 161 <| (setConfig .dataServer "size_of_string_memory" .uint32 5).minMax 0 4294967295,
   row 82 162 <| (setConfig .dataServer "data_server_open_files" .uint32 27).minMax 27 27,
   row 83 163 <| (setConfig .dataServer "data_server_file_synch_size" .uint32 4194304).min 1048576,
   row 84 164 <| (setConfig .dataServer "data_server_disk_write_speed" .uint32 8388608).min 65536,
   row 85 165 <|
     (setConfig .dataServer "data_server_disk_write_speed_start" .uint32 268435456).min 1048576,
   row 86 166 <| setConfig .dataServer "data_server_report_memory_frequency" .uint32 0,
   row 87 167 <| setConfig .dataServer "data_server_backup_status_frequency" .uint32 0,
   row 88 168 <| (setBoolean .dataServer "use_o_direct" 1).minNdbVersion 0x50119,
   row 89 169 <|
     (setConfig .dataServer "data_server_max_allocate_size"
       .uint32 33554432).minMax 1048576 1048576000,
   row 90 170 <|
     (setConfig .dataServer "data_server_group_commit_delay" .uint32 100).minMax 0 32000,
   row 91 171 <|
     (setConfig .dataServer "data_server_group_commit_timeout" .uint32 4000).minMax 0 32000,
   row 92 172 <| setBoolean .dataServer "data_server_backup_compression" 0,
   row 93 173 <| setBoolean .dataServer "data_server_local_checkpoint_compression" 0,
   row 94 174 <|
     (setConfig .dataServer "data_server_scheduler_no_send_time" .uint32 0).minMax 0 1000,
   row 95 175 <|
     (setConfig .dataServer "data_server_scheduler_no_sleep_time" .uint32 0).minMax 0 1000,
   row 96 176 <| setBoolean .dataServer "data_server_rt_scheduler_threads" 0,
   row 97 177 <|
     (setConfig .dataServer "data_server_lock_main_thread" .uint32 65535).minMax 0 65535,
   row 98 178 <|
     (setConfig .dataServer "data_server_lock_main_thread" .uint32 65535).minMax 0 65535,
   row 99 179 <| setConfig .dataServer "data_server_max_local_triggers" .uint32 0,
   row 100 180 <| setConfig .dataServer "data_server_max_local_trigger_users" .uint32 0,
   row 101 181 <| setConfig .dataServer "data_server_max_local_trigger_operations" .uint32 0,
   row 102 182 <| setConfig .dataServer "data_server_max_stored_group_commits" .uint32 0,
   row 103 183 <| deprecated,
   row 104 184 <| setConfig .dataServer "data_server_report_startup_frequency" .uint32 0,
   row 105 185 <| (setConfig .dataServer "data_server_node_group" .uint32 0).minMax 0 255,
   row 106 186 <| (setConfig .dataServer "data_server_threads" .uint32 8).max 36,
   row 107 187 <| deprecated,
   row 108 188 <| deprecated,
   row 109 189 <| (setString .dataServer "data_server_zero_redo_log").defaultStr sparseString,
   row 110 190 <| setConfig .dataServer "data_server_file_thread_pool" .uint32 8,
   row 111 191 <| deprecated,
   row 112 192 <| deprecated,
   row 113 193 <| (setString .dataServer "data_server_disk_file_path").defaultStr .empty,
   row 114 194 <| (setString .dataServer "data_server_disk_data_file_path").defaultStr .empty,
   row 115 195 <| (setString .dataServer "data_server_disk_undo_file_path").defaultStr .empty,
   row 116 196 <| (setString .dataServer "data_server_initial_log_file_group").defaultStr .empty,
   row 117 197 <| (setString .dataServer "data_server_initial_tablespace").defaultStr .empty,
   row 118 198 <| setConfig .dataServer "data_server_memory_pool" .uint64 0,
   row 119 199 <| deprecated,
   row 120 200 <|
     ((setConfig .client "client_resolve_rank" .uint32 0).minMax 0 2).types allClientTypes,
   row 121 201 <| (setConfig .client "client_resolve_timer" .uint32 0).types allClientTypes,
   row 122 202 <| deprecated,
   row 123 203 <|
     ((setConfig .dataServer "more_network_buffer_size"
       .uint64 16777216).minMax 0 134217728).types allNodeTypes,
   row 124 204 <|
     (setConfig .clusterServer "timer_heartbeat_cluster_server_nodes"
       .uint32 1500).minMax 100 4294967295,
   row 125 205 <| (setConfig .dataServer "page_cache_entries" .uint32 10).minMax 1 4294967295,
   row 126 206 <| (setConfig .dataServer "time_out_gcp" .uint32 120000).minMax 10 4294967295,
   row 139 249 <|
     (((setConfig .client "apid_num_threads"
       .uint32 1).minMax 1 256).onlyIclaustron).types fileAndRepTypes,
   row 140 250 <| (setConfig .dataServer "log_level_start" .uint32 8).minMax 0 15,
   row 141 251 <| (setConfig .dataServer "log_level_stop" .uint32 8).minMax 0 15,
   row 142 252 <| (setConfig .dataServer "log_level_statistics" .uint32 8).minMax 0 15,
   row 143 253 <| (setConfig .dataServer "log_level_checkpoint" .uint32 8).minMax 0 15,
   row 144 254 <| (setConfig .dataServer "log_level_restart" .uint32 8).minMax 0 15,
   row 145 255 <| (setConfig .dataServer "log_level_connection" .uint32 8).minMax 0 15,
   row 146 256 <| (setConfig .dataServer "log_level_reports" .uint32 8).minMax 0 15,
   row 147 257 <| (setConfig .dataServer "log_level_warning" .uint32 8).minMax 0 15,
   row 148 258 <| (setConfig .dataServer "log_level_error" .uint32 8).minMax 0 15,
   row 149 259 <| (setConfig .dataServer "log_level_congestion" .uint32 8).minMax 0 15,
   row 150 260 <| (setConfig .dataServer "log_level_debug" .uint32 8).minMax 0 15,
   row 151 261 <| (setConfig .dataServer "log_level_backup" .uint32 8).minMax 0 15,
   row 152 262 <| (setConfig .dataServer "log_level_schema" .uint32 8).minMax 0 15,
   row 170 300 <|
     (setConfig .clusterServer "cluster_server_port_number" .uint32 1186).minMax 0 65535,
   row 171 340 <|
     ((setConfig .clusterManager "cluster_manager_port_number"
       .uint32 11861).minMax 0 65535).onlyIclaustron,
   row 172 350 <|
     (setConfig .dataServer "epoch_replication_buffer_size"
       .uint32 26214400).minMax 26214400 4294967295,
   row 180 400 <| (setConfig .comm "first_node_id" .uint16 0).minMax 1 255,
   row 181 401 <| (setConfig .comm "second_node_id" .uint16 0).minMax 1 255,
   row 182 402 <| setBoolean .comm "use_message_id" 0,
   row 183 403 <| setBoolean .comm "use_checksum" 0,
   row 184 404 <| deprecated,
   row 185 405 <| deprecated,
   row 186 406 <| setConfig .comm "server_port_number" .uint32 0,
   row 187 407 <| setString .comm "first_hostname",
   row 188 408 <| setString .comm "second_hostname",
   row 189 409 <| (setConfig .comm "socket_group" .uint16 55).minMax 55 55,
   row 190 410 <| (setConfig .comm "server_node_id" .uint16 0).minMax 1 255,
   row 191 411 <| (setConfig .comm "socket_overload" .uint32 0).minMax 0 0,
   row 192 412 <| setBoolean .comm "comm_checksum_pre" 0,
   row 193 420 <|
     (((setConfig .comm "client_port_number"
       .uint16 0).minMax 0 65535).maxNdbVersion 1).onlyIclaustron,
   row 194 454 <| (setConfig .comm "socket_write_buffer_size" .uint32 262144).min 65536,
   row 195 455 <| (setConfig .comm "socket_read_buffer_size" .uint32 262144).min 16384,
   row 196 456 <| deprecated,
   row 197 457 <| (setConfig .comm "socket_kernel_read_buffer_size" .uint32 0).minMax 0 2145386496,
   row 198 458 <|
     (setConfig .comm "socket_kernel_write_buffer_size" .uint32 0).minMax 0 2145386496,
   row 199 459 <| (setConfig .comm "socket_maxseg_size" .uint32 0).max 134217728,
   row 200 460 <| setBoolean .comm "socket_bind_address" 0,
   row 201 461 <| (setConfig .comm "socket_spin_time" .uint32 0).minMax 0 2000,
   row 202 489 <|
     ((setConfig .comm "socket_max_wait_in_nanos" .uint32 50000).max 10000000).onlyIclaustron,
   row 215 605 <| (setConfig .dataServer "data_server_lcp_poll_time" .uint32 0).minMax 0 600,
   row 216 606 <|
     (setConfig .dataServer "data_server_parallel_build_index" .uint32 128).minMax 0 128,
   row 217 607 <| (setConfig .dataServer "data_server_heartbeat_order" .uint32 0).minMax 0 65535,
   row 218 608 <| (setConfig .dataServer "data_server_trace_schema_ops" .uint32 0).minMax 0 100,
   row 219 609 <| setConfig .dataServer "data_server_max_automatic_start_retries" .uint32 3,
   row 220 610 <| setConfig .dataServer "data_server_max_automatic_start_retries" .uint32 0,
   row 221 611 <| setConfig .dataServer "data_server_redo_overload_limit" .uint32 30,
   row 222 612 <| setConfig .dataServer "data_server_redo_overload_report_limit" .uint32 5,
   row 223 613 <| setConfig .dataServer "data_server_log_event_buffer_size" .uint32 8192,
   row 224 614 <|
     (setConfig .dataServer "data_server_numa_interleave_memory" .uint32 1).minMax 0 1,
   row 225 615 <| (setConfig .dataServer "data_server_allocate_memory_time" .uint32 1).minMax 1 1,
   row 226 616 <| (setBoolean .dataServer "data_server_copy_data_algorithm" 1).minMax 1 1,
   row 227 617 <|
     setConfig .dataServer "data_server_max_concurrent_scans_per_partition" .uint32 512,
   row 228 618 <| setConfig .dataServer "data_server_node_connect_check_timer" .uint32 0,
   row 229 619 <|
     setConfig .dataServer "data_server_start_timer_wait_nodes_without_nodegroup" .uint32 15000,
   row 230 620 <|
     (setConfig .dataServer "data_server_index_statistics_create_flag" .uint32 1).minMax 0 1,
   row 231 621 <|
     (setConfig .dataServer "data_server_index_statistics_monitor_update_flag"
       .uint32 1).minMax 0 1,
   row 232 622 <|
     setConfig .dataServer "data_server_index_statistics_size_per_index" .uint32 65536,
   row 233 623 <|
     (setConfig .dataServer "data_server_index_statistics_scale_factor_large_indexes"
       .uint32 100).minMax 100 100,
   row 234 624 <|
     (setConfig .dataServer "data_server_index_statistics_change_factor_to_update"
       .uint32 100).minMax 100 100,
   row 235 625 <|
     (setConfig .dataServer "data_server_index_statistics_change_factor_large_index"
       .uint32 100).minMax 100 100,
   row 236 626 <|
     setConfig .dataServer "data_server_index_statistics_minimum_update_delay" .uint32 120,
   row 237 627 <|
     (setConfig .dataServer "data_server_max_queries_per_transaction" .uint32 1000).min 32,
   row 238 628 <| (setString .dataServer "data_server_cpu_thread_configuration").defaultStr .empty,
   row 239 629 <| setBoolean .dataServer "data_server_crash_flag_on_checksum_error" 1,
   row 240 630 <| (setConfig .dataServer "data_server_always_free_pct" .uint32 5).minMax 0 100,
   row 241 631 <| setConfig .dataServer "lcp_watchdog_timer" .uint32 180,
   row 242 632 <|
     ((setConfig .dataServer "number_of_redo_log_parts"
       .uint32 4).minNdbVersion 0x70209).minMax 4 32,
   row 243 633 <| setBoolean .dataServer "__ignore_indexes_in_recovery" 0,
   row 244 634 <| setBoolean .dataServer "__ignore_foreign_keys_in_recovery" 0,
   row 245 635 <| (setConfig .dataServer "data_node_port" .uint32 0).minMax 0 65535,
   row 246 636 <| setBoolean .dataServer "bind_tcp_addr" 0,
   row 247 637 <| setConfig .dataServer "event_connect_timeout" .uint32 120000,
   row 248 638 <|
     (setConfig .dataServer "min_checkpoint_speed" .uint64 10485760).minMax 1048576 1099511627776,
   row 249 639 <|
     (setConfig .dataServer "max_checkpoint_speed" .uint64 20971520).minMax 1048576 1099511627776,
   row 250 800 <|
     ((setConfig .client "client_max_batch_byte_size"
       .uint32 262144).minMax 32768 4194304).types userTypes,
   row 251 801 <|
     ((setConfig .client "client_batch_byte_size" .uint32 8192).minMax 128 65536).types userTypes,
   row 252 802 <|
     ((setConfig .client "client_batch_size" .uint32 64).minMax 1 992).types userTypes,
   row 253 803 <| (setBoolean .client "client_automatic_reconnect" 1).types userTypes,
   row 254 804 <| deprecated,
   row 255 805 <|
     ((setConfig .client "client_default_redo_operation_type"
       .uint32 1).minMax 0 1).types userTypes,
   row 256 806 <| (setConfig .dataServer "hash_map_size" .uint32 0).minMax 0 3840,
   row 257 807 <| setConfig .client "connect_max_backoff_time" .uint32 1500,
   row 258 808 <| setConfig .client "connect_max_backoff_time_at_setup" .uint32 0,
   row 259 809 <| (setConfig .client "debug_api" .uint32 0).minMax 0 100,
   row 260 880 <| ((setString .dataServer "pcntrl_hostname").onlyIclaustron).types allNodeTypes,
   row 261 881 <|
     (((setConfig .dataServer "pcntrl_port"
       .uint32 11860).minMax 0 65535).onlyIclaustron).types allNodeTypes,
   row 265 997 <|
     (((setConfig .dataServer "port_number"
       .uint32 1187).minMax 0 65535).types allNodeTypes).notSent,
   row 285 640 <|
     (setConfig .dataServer "max_checkpoint_speed_when_node_restart"
       .uint64 52428800).minMax 1048576 1099511627776,
   row 286 641 <|
     (setConfig .dataServer "max_checkpoint_speed_at_my_restart"
       .uint64 209715200).minMax 1048576 1099511627776,
   row 287 642 <| (setConfig .dataServer "__variable_timing" .uint32 0).types allNodeTypes,
   row 288 643 <| (setConfig .dataServer "copy_partition_concurrency" .uint32 0).minMax 0 64,
   row 289 644 <| (setConfig .dataServer "delay_before_sending" .uint32 0).minMax 0 11000,
   row 290 645 <| (setConfig .dataServer "backup_percent_speed" .uint32 50).minMax 0 90,
   row 291 646 <| (setConfig .dataServer "scheduler_activity" .uint32 5).minMax 0 10,
   row 292 647 <| (setConfig .dataServer "rows_scanned_per_time" .uint32 16).minMax 1 16,
   row 293 648 <| (setConfig .dataServer "__file_format_disk" .uint32 1).minMax 0 1,
   row 294 649 <| setBoolean .dataServer "enable_new_lcp_algorithm" 1,
   row 295 650 <| setBoolean .dataServer "o_direct_sync" 0,
   row 296 651 <|
     (setConfig .dataServer "unique_index_build_concurrency" .uint32 64).minMax 16 512,
   row 297 652 <| (setConfig .dataServer "foreign_key_build_concurrency" .uint32 64).minMax 16 512,
   row 298 653 <| (setConfig .dataServer "reorg_concurrency" .uint32 64).minMax 16 512,
   row 299 654 <| (setConfig .dataServer "param_recovery" .uint32 60).minMax 25 100,
   row 300 655 <| setBoolean .dataServer "enable_shared_memory" 0,
   row 301 656 <| (setConfig .dataServer "insert_param_recovery" .uint32 40).minMax 0 70,
   row 302 657 <| setBoolean .dataServer "instant_wd_kill" 0,
   row 303 658 <| setBoolean .dataServer "enable_new_redo" 1,
   row 304 659 <| (setConfig .dataServer "enable_new_backup" .uint32 1).minMax 0 1,
   row 305 660 <| setConfig .dataServer "reserved_cio" .uint32 0,
   row 306 661 <| setConfig .dataServer "reserved_ft" .uint32 0,
   row 307 662 <| setConfig .dataServer "reserved_co" .uint32 0,
   row 308 663 <| setConfig .dataServer "reserved_lc" .uint32 0,
   row 309 664 <| (setConfig .dataServer "reserved_ct" .uint32 0).minMax 0 0,
   row 310 665 <| setConfig .dataServer "reserved_cs" .uint32 0,
   row 311 666 <| setConfig .dataServer "reserved_tbm" .uint32 0,
   row 312 667 <| (setConfig .dataServer "operation_memory" .uint64 0).minMax 0 163846,
   row 313 668 <| (setConfig .dataServer "max_latency_page_cache_miss" .uint32 0).minMax 0 8000,
   row 314 669 <| setBoolean .dataServer "colocated_disk_data_and_checkpoints" 1,
   row 315 670 <| (setConfig .dataServer "num_sockets_in_node_group" .uint32 0).minMax 0 32,
   row 316 671 <| setString .dataServer "spin_algorithm"]

/-- `glob_conf_entry` and its maps after `ic_init_config_parameters`. -/
def globTable : ConfigTable where
  globConfEntry inx := ((initConfigParameters.find? (·.inx = inx)).map (·.entry)).getD {}
  mapConfigIdToInx id := ((initConfigParameters.find? (·.configId = id)).map (·.inx)).getD 0
  mapInxToConfigId inx := ((initConfigParameters.find? (·.inx = inx)).map (·.protocolId)).getD 0

end IClaustron.Config
